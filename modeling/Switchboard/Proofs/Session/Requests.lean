import Switchboard.Proofs.Session.Steps
import Switchboard.Proofs.Store.Count

/-!
# Requests and their replies

A request learns one thing only: the frame that came for its number, or that there will be none. It
is told that there will be none when the session is lost, and when its number is given out again,
which is after as many requests as there are numbers.

* `Request.Proper` is what holds of a request, and `Session.Sound` of all of them together with the
  entries that replies find them by. `sound_of_step` keeps it.
* `Request.Onward` is what may become of a request: a reply that has come stays, and so does an
  outcome. `onward_of_step` is one action.
-/

namespace Switchboard

/-- Whether a loop has told that the session is lost. -/
def LoopStage.hasAnnounced : LoopStage → Bool
  | .announced | .over => true
  | _ => false

/-- What holds of the request with number `n`. -/
structure Request.Proper (r : Request) (n count : Nat) (lost ended : Bool) : Prop where
  lt : n < count
  /-- Only a frame for its number reaches it. -/
  arrived : ∀ f, r.reply = .arrived f → f.replyTo = some (Session.requestId n)
  /-- It is given up when the session is lost or its number is needed again. -/
  never : r.reply = .never → lost = true ∨ n + 2 ^ 64 < count
  /-- It ends as its reply says, or because it is given up. -/
  done : ∀ o, r.stage = .done o →
    (∃ f, r.reply = .arrived f ∧ o = r.demand.kind.interpret f) ∨
      (o = .failed .disconnected ∧ (lost = true ∨ n + 2 ^ 64 < count))
  /-- After requests have been given up, one that still awaits its reply has only been entered. -/
  entered : ended = true → r.reply = .awaited → r.stage = .entered

/-- A proper request stays so when more requests follow and loops end. -/
lemma Request.Proper.mono {r : Request} {n count count' : Nat} {lost lost' ended ended' : Bool}
    (h : r.Proper n count lost ended) (hc : count ≤ count') (hl : lost = true → lost' = true)
    (ho : ended' = true → ended = true) : r.Proper n count' lost' ended' where
  lt := Nat.lt_of_lt_of_le h.lt hc
  arrived := h.arrived
  never hr := (h.never hr).imp hl fun hlt => Nat.lt_of_lt_of_le hlt hc
  done o hd := (h.done o hd).imp id fun hx =>
    ⟨hx.1, hx.2.imp hl fun hlt => Nat.lt_of_lt_of_le hlt hc⟩
  entered hover := h.entered (ho hover)

/-- How an action may take the request with number `n` from one stage to another. -/
inductive RequestStage.Next (a : SessionAction) (n : Nat) (closed : Bool) :
    RequestStage → RequestStage → Prop
  | kept (stage : RequestStage) (h : a ≠ .enqueue n) : Next a n closed stage stage
  | checked (h : a = .check n) : Next a n closed .entered .sending
  | failed (h : a = .check n) : Next a n closed .entered (.done (.failed .disconnected))
  | sent (h : a = .enqueue n) (hc : closed = false) : Next a n closed .sending .waiting
  | refused (h : a = .enqueue n) (hc : closed = true) :
    Next a n closed .sending (.done (.failed .disconnected))
  | collected (o : RequestOutcome) (h : a = .collect n) : Next a n closed .waiting (.done o)

/-- An outcome stays. -/
theorem RequestStage.Next.done {a : SessionAction} {n : Nat} {closed : Bool} {o : RequestOutcome}
    {stage : RequestStage} (h : Next a n closed (.done o) stage) : stage = .done o := by
  cases h
  rfl

/-- What an action may make of the request with number `n`. -/
structure Request.Onward (a : SessionAction) (n : Nat) (closed : Bool) (r r' : Request) : Prop where
  demand : r'.demand = r.demand
  /-- Only a request that awaits its reply is told something, and only a frame that has been read
  reaches it. -/
  reply : r'.reply = r.reply ∨ (r.reply = .awaited ∧ (r'.reply = .never ∨
    ∃ text f, a = .read (.line text) ∧ frameOf? text = some f ∧ r'.reply = .arrived f))
  stage : RequestStage.Next a n closed r.stage r'.stage

namespace Session

/-- Whether a loop has given up the waiting requests. -/
def isOver (s : Session) : Bool := s.reader = .over || s.writer = .over

lemma isOver_iff {s : Session} : s.isOver = true ↔ s.reader = .over ∨ s.writer = .over := by
  simp [isOver]

/-- What holds of the requests of a session. -/
structure Sound (s : Session) : Prop where
  proper : ∀ n r, s.requests.get? n = some r → r.Proper n s.count s.lost s.isOver
  /-- Replies find requests that await them, by their own numbers. -/
  waiter : ∀ id w, s.pending.get? id = some w → requestId w.request = id ∧
    ∃ r, s.requests.get? w.request = some r ∧ r.reply = .awaited
  /-- A request that awaits its reply can be found. -/
  awaited : ∀ n r, s.requests.get? n = some r → r.reply = .awaited →
    ∃ w, s.pending.get? (requestId n) = some w ∧ w.request = n
  reader : s.reader.hasAnnounced = true → s.lost = true
  writer : s.writer.hasAnnounced = true → s.lost = true
  lost : s.lost = true → s.reader.hasAnnounced = true ∨ s.writer.hasAnnounced = true

/-- Requests have the same number on the wire when they agree up to the word size. -/
lemma requestId_eq_iff {m n : Nat} : requestId m = requestId n ↔ m % 2 ^ 64 = n % 2 ^ 64 := by
  unfold requestId
  rw [← UInt64.toNat_inj, UInt64.toNat_ofNat', UInt64.toNat_ofNat']
  omega

/-- Two requests of one number are as many requests apart as there are numbers. -/
theorem add_le_of_requestId_eq {m n : Nat} (h : requestId m = requestId n) (hlt : m < n) :
    m + 2 ^ 64 ≤ n := by
  rw [requestId_eq_iff] at h
  omega

namespace Sound

variable {s s' : Session} (h : s.Sound)
include h

/-- A session that is over has been marked as lost. -/
lemma lost_of_over (ho : s.isOver = true) : s.lost = true := by
  rcases isOver_iff.1 ho with ho | ho
  · exact h.reader (by rw [ho]; rfl)
  · exact h.writer (by rw [ho]; rfl)

/-! ## Parts of actions -/

/-- The soundness of a session depends on its requests and on whether it is lost. -/
theorem congr (hr : s'.requests = s.requests) (hp : s'.pending = s.pending)
    (hc : s'.count = s.count) (hl : s'.lost = s.lost)
    (hreader : s'.reader = s.reader ∨ (s'.reader.hasAnnounced = s.reader.hasAnnounced ∧
      s'.reader ≠ .over))
    (hwriter : s'.writer = s.writer ∨ (s'.writer.hasAnnounced = s.writer.hasAnnounced ∧
      s'.writer ≠ .over)) : s'.Sound := by
  have hra : s'.reader.hasAnnounced = s.reader.hasAnnounced := by
    rcases hreader with hx | hx
    · rw [hx]
    · exact hx.1
  have hwa : s'.writer.hasAnnounced = s.writer.hasAnnounced := by
    rcases hwriter with hx | hx
    · rw [hx]
    · exact hx.1
  have hover : s'.isOver = true → s.isOver = true := by
    rw [isOver_iff, isOver_iff]
    rintro (ho | ho)
    · rcases hreader with hx | hx
      · exact .inl (hx ▸ ho)
      · exact absurd ho hx.2
    · rcases hwriter with hx | hx
      · exact .inr (hx ▸ ho)
      · exact absurd ho hx.2
  refine ⟨fun n r hn => ?_, ?_, ?_, ?_, ?_, ?_⟩
  · rw [hr] at hn
    exact (h.proper n r hn).mono (Nat.le_of_eq hc.symm) (fun hx => hl ▸ hx) hover
  · rw [hp, hr]
    exact h.waiter
  · rw [hp, hr]
    exact h.awaited
  · rw [hra, hl]
    exact h.reader
  · rw [hwa, hl]
    exact h.writer
  · rw [hra, hwa, hl]
    exact h.lost

lemma pushed (f : Frame) : (s.push f).Sound := h.congr rfl rfl rfl rfl (.inl rfl) (.inl rfl)

/-- A request that is found by its number is told something and found no more. -/
theorem told {w : Waiter} {id : UInt64} {reply : ReplyFrame} (hw : s.pending.get? id = some w)
    (hr : s'.requests = s.requests.modify w.request fun r => { r with reply })
    (hp : s'.pending = s.pending.erase id) (hc : s'.count = s.count) (hl : s'.lost = s.lost)
    (hreader : s'.reader = s.reader) (hwriter : s'.writer = s.writer)
    (harrived : ∀ f, reply = .arrived f → f.replyTo = some id)
    (hnever : reply = .never → s.lost = true ∨ w.request + 2 ^ 64 < s.count)
    (hne : reply ≠ .awaited) : s'.Sound := by
  obtain ⟨hid, r₀, hr₀, hawaited⟩ := h.waiter id w hw
  have hget : ∀ n, s'.requests.get? n
      = if n = w.request then some { r₀ with reply } else s.requests.get? n := fun n => by
    rw [hr, Table.get?_modify, hr₀, Option.map_some]
  have hover : s'.isOver = s.isOver := by rw [isOver, isOver, hreader, hwriter]
  refine ⟨fun n r hn => ?_, fun id' w' hw' => ?_, fun n r hn hrep => ?_, ?_, ?_, ?_⟩
  · rw [hc, hl, hover]
    rw [hget] at hn
    split at hn
    · next hnw =>
      -- this is the request that is told
      cases Option.some.inj hn
      have hold := h.proper _ _ hr₀
      rw [hnw]
      refine ⟨hold.lt, fun f hf => ?_, hnever, fun o ho => ?_, fun _ hx => absurd hx hne⟩
      · rw [hid]
        exact harrived f hf
      · rcases hold.done o ho with ⟨f, hf, -⟩ | hx
        · exact absurd (hawaited.symm.trans hf) (by simp)
        · exact .inr hx
    · exact h.proper n r hn
  · rw [hp, Table.get?_erase] at hw'
    split at hw'
    · exact absurd hw' (by simp)
    · next hne' =>
      obtain ⟨hid', r', hr', hrep'⟩ := h.waiter id' w' hw'
      refine ⟨hid', r', ?_, hrep'⟩
      -- an entry under another number leads to another request
      have hother : w'.request ≠ w.request := fun he => hne' (by rw [← hid', he, hid])
      rw [hget, if_neg hother]
      exact hr'
  · rw [hget] at hn
    split at hn
    · cases Option.some.inj hn
      exact absurd hrep hne
    · next hnw =>
      obtain ⟨w', hw', rfl⟩ := h.awaited n r hn hrep
      refine ⟨w', ?_, rfl⟩
      have hother : requestId w'.request ≠ id := fun he => by
        rw [he, hw] at hw'
        exact hnw (by rw [Option.some.inj hw'])
      rw [hp, Table.get?_erase, if_neg hother]
      exact hw'
  · rw [hreader, hl]
    exact h.reader
  · rw [hwriter, hl]
    exact h.writer
  · rw [hreader, hwriter, hl]
    exact h.lost

/-- A request comes to another stage. -/
theorem advanced {n : Nat} {r₀ : Request} {stage : RequestStage}
    (hr₀ : s.requests.get? n = some r₀)
    (hdone : ∀ o, stage = .done o →
      (∃ f, r₀.reply = .arrived f ∧ o = r₀.demand.kind.interpret f) ∨
        (o = .failed .disconnected ∧ (s.lost = true ∨ n + 2 ^ 64 < s.count)))
    (hentered : s.isOver = true → r₀.reply = .awaited → stage = .entered) :
    (s.advance n stage).Sound := by
  have hget : ∀ m, (s.advance n stage).requests.get? m
      = if m = n then some { r₀ with stage } else s.requests.get? m := fun m => by
    change (s.requests.modify n _).get? m = _
    rw [Table.get?_modify, hr₀, Option.map_some]
  refine ⟨fun m r hm => ?_, fun id w hw => ?_, fun m r hm hrep => ?_, h.reader, h.writer, h.lost⟩
  · rw [hget] at hm
    split at hm
    · next hmn =>
      cases Option.some.inj hm
      have hold := h.proper n r₀ hr₀
      rw [hmn]
      exact ⟨hold.lt, hold.arrived, hold.never, hdone, hentered⟩
    · exact h.proper m r hm
  · obtain ⟨hid, r, hr, hrep⟩ := h.waiter id w hw
    refine ⟨hid, ?_⟩
    rw [hget]
    split
    · next hwn =>
      rw [hwn, hr₀] at hr
      exact ⟨_, rfl, by rw [← hrep, ← Option.some.inj hr]⟩
    · exact ⟨r, hr, hrep⟩
  · rw [hget] at hm
    split at hm
    · next hmn =>
      cases Option.some.inj hm
      rw [hmn]
      exact h.awaited n r₀ hr₀ hrep
    · exact h.awaited m r hm hrep

/-- The request that goes by a number is given up. -/
theorem forsaken {id : UInt64} (hlost : ∀ w, s.pending.get? id = some w →
    s.lost = true ∨ w.request + 2 ^ 64 < s.count) : (s.forsake id).Sound := by
  unfold forsake
  split
  · exact h
  · next w hw =>
    exact h.told hw rfl rfl rfl rfl rfl rfl (fun f hf => absurd hf (by simp))
      (fun _ => hlost w hw) (by simp)

omit h in
/-- Nothing is found by a number that has been given up. -/
theorem pending_forsake (s : Session) (id : UInt64) : (s.forsake id).pending.get? id = none := by
  unfold forsake
  split
  · next hnone => exact hnone
  · exact (Table.get?_erase ..).trans (if_pos rfl)

omit h in
/-- What waited under a number will never be answered, and the other requests stay as they were. -/
lemma requests_forsake (s : Session) (id : UInt64) (n : Nat) :
    (s.forsake id).requests.get? n = s.requests.get? n ∨
      ∃ w r, s.pending.get? id = some w ∧ w.request = n ∧ s.requests.get? n = some r ∧
        (s.forsake id).requests.get? n = some { r with reply := .never } := by
  unfold forsake
  split
  · exact .inl rfl
  · next w hw =>
    change (s.requests.modify w.request _).get? n = _ ∨ ∃ w r, _ ∧ _ ∧ _ ∧
      (s.requests.modify _ _).get? n = _
    rw [Table.get?_modify]
    split
    · next hn =>
      cases hr : s.requests.get? n with
      | none =>
        rw [← hn, hr]
        exact .inl rfl
      | some r => exact .inr ⟨w, r, hw, hn.symm, rfl, by rw [← hn, hr]; rfl⟩
    · exact .inl rfl

omit h in
lemma forsake_fields (s : Session) (id : UInt64) :
    (s.forsake id).count = s.count ∧ (s.forsake id).lost = s.lost ∧
      (s.forsake id).reader = s.reader ∧ (s.forsake id).writer = s.writer := by
  unfold forsake
  split <;> exact ⟨rfl, rfl, rfl, rfl⟩

/-- A request fails because the session is lost. -/
theorem failed {n : Nat} {r : Request} (hr : s.requests.get? n = some r) (hlost : s.lost = true) :
    (s.failRequest n).Sound := by
  have hf : (s.forsake (requestId n)).Sound := h.forsaken fun _ _ => .inl hlost
  have hget : ∃ r', (s.forsake (requestId n)).requests.get? n = some r' := by
    rcases requests_forsake s (requestId n) n with he | ⟨_, _, _, _, _, he⟩
    · exact ⟨r, he.trans hr⟩
    · exact ⟨_, he⟩
  obtain ⟨r', hr'⟩ := hget
  refine hf.advanced hr' (fun o ho => ?_) (fun _ hrep => ?_)
  · exact .inr ⟨(RequestStage.done.inj ho).symm, .inl (by rw [(forsake_fields s _).2.1, hlost])⟩
  · -- the request cannot be found any more, so that it does not await its reply
    obtain ⟨w, hw, -⟩ := hf.awaited n r' hr' hrep
    rw [pending_forsake] at hw
    exact absurd hw (by simp)

/-- A request is new under a number that nobody is found by. -/
theorem inserted {n : Nat} (demand : Demand) {w : Waiter} (hn : n < s.count) (hw : w.request = n)
    (hfresh : s.requests.get? n = none) (hnone : s.pending.get? (requestId n) = none)
    (hr : s'.requests = s.requests.insert n { demand })
    (hp : s'.pending = s.pending.insert (requestId n) w)
    (hc : s'.count = s.count) (hl : s'.lost = s.lost) (hreader : s'.reader = s.reader)
    (hwriter : s'.writer = s.writer) : s'.Sound := by
  have hover : s'.isOver = s.isOver := by rw [isOver, isOver, hreader, hwriter]
  refine ⟨fun m r hm => ?_, fun id v hv => ?_, fun m r hm hrep => ?_, ?_, ?_, ?_⟩
  · rw [hc, hl, hover]
    rw [hr] at hm
    obtain ⟨rfl, rfl⟩ | hm := Table.get?_of_get?_insert hm
    · -- nothing has happened to it yet
      exact ⟨hn, fun f hf => absurd hf (by simp), fun hx => absurd hx (by simp),
        fun o ho => absurd ho (by simp), fun _ _ => rfl⟩
    · exact h.proper m r hm
  · rw [hp] at hv
    obtain ⟨rfl, rfl⟩ | hv := Table.get?_of_get?_insert hv
    · refine ⟨by rw [hw], { demand }, ?_, rfl⟩
      rw [hr, Table.get?_insert, if_pos hw]
    · obtain ⟨hid, r, hget, hrep⟩ := h.waiter id v hv
      refine ⟨hid, r, ?_, hrep⟩
      -- the other requests do not have the new number
      have hne : v.request ≠ n := fun he => by
        rw [he, hfresh] at hget
        exact absurd hget (by simp)
      rw [hr, Table.get?_insert, if_neg hne]
      exact hget
  · rw [hr] at hm
    rw [hp]
    obtain ⟨rfl, rfl⟩ | hm := Table.get?_of_get?_insert hm
    · exact ⟨w, (Table.get?_insert ..).trans (if_pos rfl), hw⟩
    · obtain ⟨v, hv, rfl⟩ := h.awaited m r hm hrep
      refine ⟨v, ?_, rfl⟩
      have hne : requestId v.request ≠ requestId n := fun he => by
        rw [he, hnone] at hv
        exact absurd hv (by simp)
      rw [Table.get?_insert, if_neg hne]
      exact hv
  · rw [hreader, hl]
    exact h.reader
  · rw [hwriter, hl]
    exact h.writer
  · rw [hreader, hwriter, hl]
    exact h.lost

/-- The number of the next request has not been used. -/
lemma requests_count : s.requests.get? s.count = none := by
  cases hr : s.requests.get? s.count with
  | none => rfl
  | some r => exact absurd (h.proper _ r hr).lt (Nat.lt_irrefl _)

/-- A request begins under a number of its own. -/
theorem begun (demand : Demand) : (s.begin demand).Sound := by
  -- first it is counted, then an older request of its number is given up, and then it is entered
  have hbump : Sound { s with count := s.count + 1 } := by
    refine ⟨fun n r hn => ?_, h.waiter, h.awaited, h.reader, h.writer, h.lost⟩
    exact (h.proper n r hn).mono (Nat.le_succ _) id id
  have hf : Sound { s.forsake (requestId s.count) with count := s.count + 1 } := by
    have heq : { s.forsake (requestId s.count) with count := s.count + 1 }
        = { s with count := s.count + 1 }.forsake (requestId s.count) := by
      cases hp : s.pending.get? (requestId s.count) <;> simp [forsake, hp, modifyRequest]
    rw [heq]
    refine hbump.forsaken fun w hw => .inr ?_
    -- all numbers have been given out since the older request began
    obtain ⟨hid, r, hr, -⟩ := h.waiter _ w hw
    exact Nat.lt_succ_of_le (add_le_of_requestId_eq hid (h.proper _ r hr).lt)
  have hfresh : (s.forsake (requestId s.count)).requests.get? s.count = none := by
    rcases requests_forsake s (requestId s.count) s.count with he | ⟨_, _, _, _, hr, _⟩
    · exact he.trans h.requests_count
    · exact absurd (h.requests_count.symm.trans hr) (by simp)
  have hcount := (forsake_fields s (requestId s.count)).1
  refine hf.inserted (n := s.count) (w := ⟨s.count, demand.handler?⟩) demand (Nat.lt_succ_self _)
    rfl hfresh (pending_forsake s _) ?_ ?_ ?_ rfl rfl rfl
  · change (s.forsake _).requests.insert (s.forsake _).count _ = _
    rw [hcount]
  · change (s.forsake _).pending.insert (requestId (s.forsake _).count) ⟨(s.forsake _).count, _⟩ = _
    rw [hcount]
  · exact congrArg (· + 1) hcount

/-! ## Giving up -/

omit h in
/-- When the pending table is cleared, its requests will never be answered. -/
lemma cutReplies_requests (s : Session) (n : Nat) :
    s.cutReplies.requests.get? n
      = if n ∈ s.pending.values.map Waiter.request then
          (s.requests.get? n).map fun r => { r with reply := .never }
        else s.requests.get? n := by
  unfold cutReplies
  generalize s.pending.values = ws
  induction ws generalizing s with
  | nil => simp
  | cons w rest ih =>
    rw [List.foldl_cons, ih, List.map_cons, modifyRequest, Table.get?_modify]
    by_cases hw : n = w.request
    · subst hw
      by_cases hmem : w.request ∈ rest.map Waiter.request
      · cases s.requests.get? w.request <;> simp [hmem]
      · simp [hmem]
    · simp [hw]

/-- Once the waiting requests are given up none awaits its reply. -/
theorem cut (hlost : s.lost = true) (hr : s'.requests = s.cutReplies.requests)
    (hp : s'.pending = ∅) (hc : s'.count = s.count) (hl : s'.lost = s.lost)
    (hloop : s'.reader.hasAnnounced = true ∨ s'.writer.hasAnnounced = true) : s'.Sound := by
  have hget : ∀ n r, s'.requests.get? n = some r → r.reply ≠ .awaited ∧
      ∃ r₀, s.requests.get? n = some r₀ ∧
        (r = r₀ ∨ (r₀.reply = .awaited ∧ r = { r₀ with reply := .never })) := by
    intro n r hn
    rw [hr, cutReplies_requests] at hn
    split at hn
    · next hmem =>
      rw [Option.map_eq_some_iff] at hn
      obtain ⟨r₀, hr₀, rfl⟩ := hn
      refine ⟨by simp, r₀, hr₀, .inr ⟨?_, rfl⟩⟩
      obtain ⟨w, hw, rfl⟩ := List.mem_map.1 hmem
      obtain ⟨⟨id, w'⟩, hmem', rfl⟩ := List.mem_map.1 hw
      obtain ⟨-, r₁, hr₁, hrep⟩ := h.waiter id w' (Table.mem_entries_iff.1 hmem')
      rw [hr₀] at hr₁
      rw [Option.some.inj hr₁]
      exact hrep
    · next hnot =>
      -- a request that awaits its reply would have been found
      refine ⟨fun hrep => hnot ?_, r, hn, .inl rfl⟩
      obtain ⟨w, hw, rfl⟩ := h.awaited n r hn hrep
      exact List.mem_map.2 ⟨w, List.mem_map.2 ⟨_, Table.mem_entries_iff.2 hw, rfl⟩, rfl⟩
  refine ⟨fun n r hn => ?_, fun id w hw => ?_, fun n r hn hrep => ?_, fun _ => hl.trans hlost,
    fun _ => hl.trans hlost, fun _ => hloop⟩
  · rw [hc, hl]
    obtain ⟨hne, r₀, hr₀, rfl | ⟨hrep, rfl⟩⟩ := hget n r hn
    · have hold := h.proper n r hr₀
      exact ⟨hold.lt, hold.arrived, hold.never, hold.done, fun _ hx => absurd hx hne⟩
    · have hold := h.proper n r₀ hr₀
      refine ⟨hold.lt, fun f hf => absurd hf (by simp), fun _ => .inl hlost, fun o ho => ?_,
        fun _ hx => absurd hx (by simp)⟩
      rcases hold.done o ho with ⟨f, hf, -⟩ | hx
      · exact absurd (hrep.symm.trans hf) (by simp)
      · exact .inr hx
  · rw [hp] at hw
    exact absurd hw (by simp)
  · exact absurd hrep (hget n r hn).1

/-- A loop tells that the session is lost. -/
theorem announced (hr : s'.requests = s.requests) (hp : s'.pending = s.pending)
    (hc : s'.count = s.count) (hl : s'.lost = true) (hover : s'.isOver = true → s.isOver = true)
    (hloop : s'.reader.hasAnnounced = true ∨ s'.writer.hasAnnounced = true) : s'.Sound := by
  refine ⟨fun n r hn => ?_, ?_, ?_, fun _ => hl, fun _ => hl, fun _ => hloop⟩
  · rw [hr] at hn
    exact (h.proper n r hn).mono (Nat.le_of_eq hc.symm) (fun _ => hl) hover
  · rw [hp, hr]
    exact h.waiter
  · rw [hp, hr]
    exact h.awaited

/-! ## Any action -/

/-- A frame that is read reaches no request but the one that awaits it. -/
lemma dispatched {f : Frame} (hd : s.Dispatch f s') : s'.Sound := by
  cases hd with
  | delivered hid hw =>
    refine h.told hw rfl rfl rfl rfl rfl rfl (fun f' hf' => ?_) (fun hx => absurd hx (by simp))
      (by simp)
    rw [← ReplyFrame.arrived.inj hf']
    exact hid
  | given | unhandled => exact h.congr rfl rfl rfl rfl (.inl rfl) (.inl rfl)
  | ignored => exact h

/-- Whatever happens, the requests stay sound. -/
theorem step {a : SessionAction} (hs : s.step a = some s') : s'.Sound := by
  cases change_of_step hs with
  | begun demand => exact h.begun demand
  | checked hr _ hlost =>
    refine h.advanced hr (fun o ho => absurd ho (by simp)) fun ho => ?_
    exact absurd ((h.lost_of_over ho).symm.trans hlost) (by simp)
  | failed hr _ hlost => exact h.failed hr hlost
  | sent hr hstage =>
    refine (h.pushed _).advanced hr (fun o ho => absurd ho (by simp)) fun ho hrep => ?_
    have hentered := (h.proper _ _ hr).entered ho hrep
    exact absurd (hstage.symm.trans hentered) (by simp)
  | refused hr _ hclosed =>
    -- only a writer that is over has closed the queue
    have hover : s.isOver = true := isOver_iff.2 (.inr (by simpa [isClosed] using hclosed))
    exact h.failed hr (h.lost_of_over hover)
  | collected hr _ hreply =>
    refine h.advanced hr (fun o ho => .inl ⟨_, hreply, (RequestStage.done.inj ho).symm⟩) ?_
    exact fun _ hrep => absurd (hreply.symm.trans hrep) (by simp)
  | forsaken hr _ hreply =>
    refine h.advanced hr (fun o ho => .inr ⟨(RequestStage.done.inj ho).symm, ?_⟩) ?_
    · exact (h.proper _ _ hr).never hreply
    · exact fun _ hrep => absurd (hreply.symm.trans hrep) (by simp)
  | ignored => exact h
  | heard _ _ hd => exact h.dispatched hd
  | stopped hworking =>
    exact h.congr rfl rfl rfl rfl (.inr ⟨by rw [hworking]; rfl, by simp⟩) (.inl rfl)
  | unwritten hworking =>
    exact h.congr rfl rfl rfl rfl (.inl rfl) (.inr ⟨by rw [hworking]; rfl, by simp⟩)
  | completed | dropped | answered | unanswered | wrote =>
    exact h.congr rfl rfl rfl rfl (.inl rfl) (.inl rfl)
  | readerLost =>
    refine h.announced rfl rfl rfl rfl (fun ho => isOver_iff.2 ?_) (.inl rfl)
    exact .inr ((isOver_iff.1 ho).resolve_left (by simp))
  | writerLost =>
    refine h.announced rfl rfl rfl rfl (fun ho => isOver_iff.2 ?_) (.inr rfl)
    exact .inl ((isOver_iff.1 ho).resolve_right (by simp))
  | readerOver hl => exact h.cut (h.reader (by rw [hl]; rfl)) rfl rfl rfl rfl (.inl rfl)
  | writerOver hl => exact h.cut (h.writer (by rw [hl]; rfl)) rfl rfl rfl rfl (.inr rfl)

end Sound

/-! ## What becomes of a request -/

section Onward

variable {s s' : Session} (h : s.Sound) {n : Nat} {r : Request} (hr : s.requests.get? n = some r)
include h hr

/-- Giving up a number leaves every request where it was or further. -/
lemma onward_forsake (id : UInt64) :
    ∃ r', (s.forsake id).requests.get? n = some r' ∧ r'.demand = r.demand ∧ r'.stage = r.stage ∧
      (r'.reply = r.reply ∨ (r.reply = .awaited ∧ r'.reply = .never)) := by
  rcases Sound.requests_forsake s id n with he | ⟨w, r₀, hw, hwn, hr₀, he⟩
  · exact ⟨r, he.trans hr, rfl, rfl, .inl rfl⟩
  · obtain ⟨-, r₁, hr₁, hrep⟩ := h.waiter id w hw
    rw [hwn, hr] at hr₁
    rw [hr] at hr₀
    cases Option.some.inj hr₀
    cases Option.some.inj hr₁
    exact ⟨_, he, rfl, rfl, .inr ⟨hrep, rfl⟩⟩

/-- A failure leaves every request where it was or further. -/
lemma onward_fail (m : Nat) : ∃ r', (s.failRequest m).requests.get? n = some r' ∧
    r'.demand = r.demand ∧
    r'.stage = (if n = m then .done (.failed .disconnected) else r.stage) ∧
      (r'.reply = r.reply ∨ (r.reply = .awaited ∧ r'.reply = .never)) := by
  obtain ⟨r', hr', hdemand, hstage, hreply⟩ := onward_forsake h hr (requestId m)
  have hget : (s.failRequest m).requests.get? n = if n = m
      then ((s.forsake (requestId m)).requests.get? m).map
        fun r => { r with stage := .done (.failed .disconnected) }
      else (s.forsake (requestId m)).requests.get? n := Table.get?_modify ..
  rw [hget]
  split
  · next hnm =>
    rw [← hnm] at hr' ⊢
    rw [hr']
    exact ⟨_, rfl, hdemand, rfl, hreply⟩
  · exact ⟨r', hr', hdemand, hstage, hreply⟩

omit h in
/-- An advance leaves every other request where it was. -/
lemma onward_advance {s₁ : Session} (hs₁ : s₁.requests = s.requests) (m : Nat)
    (stage : RequestStage) : (s₁.advance m stage).requests.get? n
      = some { r with stage := if n = m then stage else r.stage } := by
  have hget : (s₁.advance m stage).requests.get? n
      = if n = m then (s₁.requests.get? m).map fun r => { r with stage }
        else s₁.requests.get? n := Table.get?_modify ..
  rw [hget, hs₁]
  split
  · next hnm =>
    rw [← hnm, hr]
    rfl
  · exact hr

/-- A frame that is read leaves every request where it was or further. -/
lemma onward_of_dispatch {text : List Char} {f : Frame} (hf : frameOf? text = some f)
    (hd : s.Dispatch f s') (closed : Bool) : ∃ r', s'.requests.get? n = some r' ∧
      r.Onward (.read (.line text)) n closed r' := by
  cases hd with
  | @delivered id w _ _ hw =>
    -- the reply is for one request, which awaits it, and this may be the one
    change ∃ r', (s.requests.modify w.request _).get? n = some r' ∧ _
    rw [Table.get?_modify]
    split
    · next hn =>
      obtain ⟨-, r₁, hr₁, hrep⟩ := h.waiter id w hw
      rw [← hn, hr] at hr₁
      cases Option.some.inj hr₁
      rw [← hn, hr]
      exact ⟨_, rfl, rfl, .inr ⟨hrep, .inr ⟨text, f, rfl, hf, rfl⟩⟩, .kept _ (by simp)⟩
    · exact ⟨r, hr, rfl, .inl rfl, .kept _ (by simp)⟩
  | given | unhandled | ignored => exact ⟨r, hr, rfl, .inl rfl, .kept _ (by simp)⟩

lemma onward_of_fail {a : SessionAction} {m : Nat} {closed : Bool} (ha : n ≠ m → a ≠ .enqueue n)
    (hn : n = m → RequestStage.Next a n closed r.stage (.done (.failed .disconnected))) :
    ∃ r', (s.failRequest m).requests.get? n = some r' ∧ r.Onward a n closed r' := by
  obtain ⟨r', hr', hdemand, hstage, hreply⟩ := onward_fail h hr m
  refine ⟨r', hr', hdemand, hreply.imp id fun hx => ⟨hx.1, .inl hx.2⟩, ?_⟩
  rw [hstage]
  split
  · next hnm => exact hn hnm
  · next hnm => exact .kept _ (ha hnm)

omit h in
lemma onward_of_advance {a : SessionAction} {m : Nat} {closed : Bool} {stage : RequestStage}
    {s₁ : Session} (hs₁ : s₁.requests = s.requests) (ha : n ≠ m → a ≠ .enqueue n)
    (hn : n = m → RequestStage.Next a n closed r.stage stage) :
    ∃ r', (s₁.advance m stage).requests.get? n = some r' ∧ r.Onward a n closed r' := by
  refine ⟨_, onward_advance hr hs₁ m stage, rfl, .inl rfl, ?_⟩
  change RequestStage.Next _ _ _ r.stage (if n = m then _ else _)
  split
  · next hnm => exact hn hnm
  · next hnm => exact .kept _ (ha hnm)

lemma onward_of_begin (demand : Demand) (closed : Bool) :
    ∃ r', (s.begin demand).requests.get? n = some r' ∧ r.Onward (.begin demand) n closed r' := by
  obtain ⟨r', hr', hdemand, hstage, hreply⟩ := onward_forsake h hr (requestId s.count)
  refine ⟨r', ?_, hdemand, hreply.imp id fun hx => ⟨hx.1, .inl hx.2⟩, ?_⟩
  · have hne : n ≠ (s.forsake (requestId s.count)).count := by
      rw [(Sound.forsake_fields s _).1]
      exact Nat.ne_of_lt (h.proper n r hr).lt
    change ((s.forsake _).requests.insert _ _).get? n = _
    rw [Table.get?_insert, if_neg hne]
    exact hr'
  · rw [hstage]
    exact .kept _ (by simp)

/-- A request that is given up with the others learns that there will be no reply. -/
lemma onward_of_cut {a : SessionAction} {closed : Bool} (ha : a ≠ .enqueue n) :
    ∃ r', s.cutReplies.requests.get? n = some r' ∧ r.Onward a n closed r' := by
  rw [Sound.cutReplies_requests]
  split
  · next hmem =>
    obtain ⟨w, hw, hwn⟩ := List.mem_map.1 hmem
    obtain ⟨⟨id, w'⟩, hmem', rfl⟩ := List.mem_map.1 hw
    obtain ⟨-, r₁, hr₁, hrep⟩ := h.waiter id w' (Table.mem_entries_iff.1 hmem')
    rw [hwn, hr] at hr₁
    cases Option.some.inj hr₁
    rw [hr]
    exact ⟨_, rfl, rfl, .inr ⟨hrep, .inl rfl⟩, .kept _ ha⟩
  · exact ⟨r, hr, rfl, .inl rfl, .kept _ ha⟩

/-- What one action makes of a request. -/
theorem onward_of_step {a : SessionAction} (hs : s.step a = some s') :
    ∃ r', s'.requests.get? n = some r' ∧ r.Onward a n s.isClosed r' := by
  -- an action about the request `n` finds it as it is
  have hstage : ∀ {m r₀ stage}, s.requests.get? m = some r₀ → r₀.stage = stage → n = m →
      r.stage = stage := by
    intro m r₀ stage hm hold hnm
    rw [← hnm, hr] at hm
    rw [Option.some.inj hm]
    exact hold
  cases change_of_step hs with
  | begun demand => exact onward_of_begin h hr demand _
  | checked hm hold =>
    refine onward_of_advance hr rfl (fun _ => by simp) fun hnm => ?_
    rw [hstage hm hold hnm]
    exact .checked (by rw [hnm])
  | failed hm hold =>
    refine onward_of_fail h hr (fun _ => by simp) fun hnm => ?_
    rw [hstage hm hold hnm]
    exact .failed (by rw [hnm])
  | sent hm hold hopen =>
    refine onward_of_advance hr rfl (fun hnm he => ?_) fun hnm => ?_
    · exact hnm (SessionAction.enqueue.inj he).symm
    · rw [hstage hm hold hnm]
      exact .sent (by rw [hnm]) hopen
  | refused hm hold hclosed =>
    refine onward_of_fail h hr (fun hnm he => ?_) fun hnm => ?_
    · exact hnm (SessionAction.enqueue.inj he).symm
    · rw [hstage hm hold hnm]
      exact .refused (by rw [hnm]) hclosed
  | collected hm hold | forsaken hm hold =>
    refine onward_of_advance hr rfl (fun _ => by simp) fun hnm => ?_
    rw [hstage hm hold hnm]
    exact .collected _ (by rw [hnm])
  | heard _ hf hd => exact onward_of_dispatch h hr hf hd _
  | readerOver | writerOver => exact onward_of_cut h hr (by simp)
  | _ => exact ⟨r, hr, rfl, .inl rfl, .kept _ (by simp)⟩

end Onward

/-- A session that has just been opened has no requests. -/
theorem sound_empty : Sound {} := by
  refine ⟨fun n r hn => ?_, fun id w hw => ?_, fun n r hn => ?_, ?_, ?_, ?_⟩
  · exact absurd hn (by simp)
  · exact absurd hw (by simp)
  · exact absurd hn (by simp)
  all_goals exact fun hx => absurd hx (by decide)

end Session
end Switchboard
