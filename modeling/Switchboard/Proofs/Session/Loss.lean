import Switchboard.Proofs.Session.Frames

/-!
# Requests of a lost session

A loop that comes to its end announces the loss and then gives up the waiting requests. A request is
entered before it looks whether the session is lost, so that the two can meet in any order: either
the request is found when requests are given up, or it sees the loss itself.

* `Session.Ends` is a step of a request that ends it.
* `Session.Released` is what holds of a request once a loop has given up the waiting ones. None
  waits at an entry, and what has no reply by then ends as disconnected.
* `released_of_reaches` says so for every order of steps, and that requests which have ended leave
  no entry behind.
-/

namespace Switchboard

/-- The request with number `n` has its reply, which came for its number. -/
def Request.Replied (r : Request) (n : Nat) (f : Frame) : Prop :=
  r.reply = .arrived f ∧ f.replyTo = some (Session.requestId n)

/-- The request is bound to end as disconnected: it has not looked yet, or is told that there will
be no reply. -/
def Request.Forfeited (r : Request) : Prop :=
  r.stage = .entered ∨ r.reply = .never ∨ r.stage = .done (.failed .disconnected)

namespace Session

variable {s s' : Session} {a : SessionAction} {n : Nat}
  {r r' : Request}

/-! ## Steps that end a request -/

/-- An action ends the request with number `n`. -/
def Ends (s : Session) (n : Nat) (a : SessionAction) (o : RequestOutcome) : Prop :=
  ∃ s', s.step a = some s' ∧ (s'.requests.get? n).map Request.stage = some (.done o)

lemma stage_failRequest (h : s.Sound) (hr : s.requests.get? n = some r) :
    ((s.failRequest n).requests.get? n).map Request.stage
      = some (.done (.failed .disconnected)) := by
  obtain ⟨r', hr', -, hstage, -⟩ := onward_fail h hr n
  rw [hr', Option.map_some, hstage, if_pos rfl]

lemma stage_advance (hr : s.requests.get? n = some r) (stage : RequestStage) :
    ((s.advance n stage).requests.get? n).map Request.stage = some stage := by
  rw [onward_advance hr rfl, Option.map_some, if_pos rfl]

/-- In a lost session a request ends when it looks. -/
lemma ends_check (h : s.Sound) (hr : s.requests.get? n = some r) (hstage : r.stage = .entered)
    (hlost : s.lost = true) : s.Ends n (.check n) (.failed .disconnected) := by
  refine ⟨s.failRequest n, ?_, stage_failRequest h hr⟩
  obtain ⟨demand, stage, reply⟩ := r
  cases hstage
  simp only [step, check, hr, hlost, if_true]

/-- Its frame is refused by a queue that takes none any more. -/
lemma ends_enqueue (h : s.Sound) (hr : s.requests.get? n = some r) (hstage : r.stage = .sending)
    (hclosed : s.isClosed = true) : s.Ends n (.enqueue n) (.failed .disconnected) := by
  refine ⟨s.failRequest n, ?_, stage_failRequest h hr⟩
  obtain ⟨demand, stage, reply⟩ := r
  cases hstage
  simp only [step, enqueue, hr, hclosed, if_true]

/-- A request that has its reply takes it. -/
lemma ends_collect {f : Frame} (hr : s.requests.get? n = some r) (hstage : r.stage = .waiting)
    (hreply : r.reply = .arrived f) : s.Ends n (.collect n) (r.demand.kind.interpret f) := by
  refine ⟨s.advance n (.done (r.demand.kind.interpret f)), ?_, stage_advance hr _⟩
  obtain ⟨demand, stage, reply⟩ := r
  cases hstage
  cases hreply
  simp only [step, collect, hr]

/-- A request that is told that there will be no reply ends. -/
lemma ends_forsaken (hr : s.requests.get? n = some r) (hstage : r.stage = .waiting)
    (hreply : r.reply = .never) : s.Ends n (.collect n) (.failed .disconnected) := by
  refine ⟨s.advance n (.done (.failed .disconnected)), ?_, stage_advance hr _⟩
  obtain ⟨demand, stage, reply⟩ := r
  cases hstage
  cases hreply
  simp only [step, collect, hr]

/-- The frame of a request joins a queue that has room, and the request comes to wait. -/
lemma waits_enqueue (hr : s.requests.get? n = some r) (hstage : r.stage = .sending)
    (hopen : s.isClosed = false) (hroom : s.hasRoom = true) :
    ∃ s', s.step (.enqueue n) = some s' ∧
      s'.requests.get? n = some { r with stage := .waiting } := by
  let t := s.push (r.demand.frame (requestId n))
  refine ⟨t.advance n .waiting, ?_, ?_⟩
  · obtain ⟨demand, stage, reply⟩ := r
    cases hstage
    simp only [step, enqueue, hr, hopen, hroom, Bool.false_eq_true, if_false, if_true]
    rfl
  · have hadvance := onward_advance hr (rfl : t.requests = s.requests) n .waiting
    rw [hadvance, if_pos rfl]

/-! ## Entries -/

/-- What is found by a number is a request that awaits its reply. -/
theorem Sound.reply_of_pending (h : s.Sound) {id : UInt64} {w : Waiter}
    (hw : s.pending.get? id = some w) (hn : w.request = n) (hr : s.requests.get? n = some r) :
    r.reply = .awaited := by
  obtain ⟨-, r', hr', hreply⟩ := h.waiter id w hw
  rw [hn, hr] at hr'
  rw [Option.some.inj hr']
  exact hreply

/-- A request that has ended does not await a reply. -/
def Settled (s : Session) : Prop :=
  ∀ n r o, s.requests.get? n = some r → r.stage = .done o → r.reply ≠ .awaited

/-- A request that fails is found by its number no more. -/
lemma reply_failRequest (h : s.Sound) (hlost : s.lost = true) (hr : s.requests.get? n = some r) :
    ∀ r', (s.failRequest n).requests.get? n = some r' → r'.reply ≠ .awaited := by
  intro r' hr' hreply
  obtain ⟨w, hw, -⟩ := (h.failed hr hlost).awaited n r' hr' hreply
  have hnone : (s.failRequest n).pending.get? (requestId n) = none := Sound.pending_forsake s _
  exact absurd (hnone.symm.trans hw) (by simp)

/-- A request that is new has just begun. -/
lemma request_new (h : s.Sound) (o : s.Orderly) (hs : s.step a = some s')
    (hnone : s.requests.get? n = none) (hr : s'.requests.get? n = some r) :
    ∃ demand, r = { demand } := by
  have hold : ¬n < s.count := fun hlt => by
    obtain ⟨r', hr'⟩ := o.present n hlt
    exact absurd (hnone.symm.trans hr') (by simp)
  have hlt := ((h.step hs).proper n r hr).lt
  obtain he | ⟨demand, -, rfl⟩ := count_of_step hs
  · exact absurd (he ▸ hlt) hold
  · rw [count_begin] at hlt
    have hn : n = s.count := by omega
    rw [hn, get?_begin_count] at hr
    exact ⟨demand, (Option.some.inj hr).symm⟩

/-- A request ends only when it awaits nothing any more. -/
theorem settled_of_step (h : s.Sound) (o : s.Orderly) (k : s.Settled) (hs : s.step a = some s') :
    s'.Settled := by
  intro n r' out hr' hdone
  cases hr : s.requests.get? n with
  | none =>
    obtain ⟨demand, rfl⟩ := request_new h o hs hr hr'
    exact absurd hdone (by simp)
  | some r =>
    obtain ⟨r'', hr'', hon⟩ := onward_of_step h hr hs
    cases Option.some.inj (hr'.symm.trans hr'')
    have hkept : r.reply ≠ .awaited → r'.reply ≠ .awaited := by
      intro hne
      rw [hon.reply.resolve_right fun hx => hne hx.1]
      exact hne
    have hnext := hon.stage
    rw [hdone] at hnext
    generalize hold : r.stage = old at hnext
    -- the ways to end: it has ended before, it fails, or it takes what has come
    cases hnext with
    | kept => exact hkept (k n r out hr hold)
    | failed ha =>
      subst ha
      cases change_of_step hs with
      | checked =>
        rw [onward_advance hr rfl, if_pos rfl] at hr'
        rw [← Option.some.inj hr'] at hdone
        exact absurd hdone (by simp)
      | failed _ _ hlost => exact reply_failRequest h hlost hr r' hr'
    | refused ha hclosed =>
      subst ha
      have hover : s.isOver = true := isOver_iff.2 (.inr (by simpa [isClosed] using hclosed))
      cases change_of_step hs with
      | sent _ _ hopen => exact absurd (hclosed.symm.trans hopen) (by simp)
      | refused => exact reply_failRequest h (h.lost_of_over hover) hr r' hr'
    | collected _ ha =>
      subst ha
      refine hkept fun hawaited => ?_
      cases change_of_step hs with
      | collected hr₀ _ hreply | forsaken hr₀ _ hreply =>
        rw [hr] at hr₀
        rw [Option.some.inj hr₀, hreply] at hawaited
        exact absurd hawaited (by simp)

/-! ## After the loss -/

/-- A loop that is over stays so. -/
theorem isOver_of_step (hs : s.step a = some s') (hover : s.isOver = true) : s'.isOver = true := by
  rw [isOver_iff] at hover ⊢
  cases change_of_step hs with
  | begun | failed | refused =>
    have hf := Sound.forsake_fields s
    simpa [begin, failRequest, advance, modifyRequest, hf] using hover
  | heard _ _ hd => cases hd <;> exact hover
  | stopped hworking =>
    exact .inr (hover.resolve_left (by simp [hworking]))
  | unwritten hworking =>
    exact .inl (hover.resolve_right (by simp [hworking]))
  | readerLost hl => exact .inr (hover.resolve_left (by simp [hl]))
  | writerLost hl => exact .inl (hover.resolve_right (by simp [hl]))
  | readerOver => exact .inl rfl
  | writerOver => exact .inr rfl
  | _ => exact hover

/-- In a lost session only a request that has not looked yet can still be sent a reply, and it does
not come to read that. -/
theorem forfeited_of_step (h : s.Sound) (hover : s.isOver = true) (hr : s.requests.get? n = some r)
    (hf : r.Forfeited) (hs : s.step a = some s') (hr' : s'.requests.get? n = some r') :
    r'.Forfeited := by
  obtain ⟨r'', hr'', hon⟩ := onward_of_step h hr hs
  cases Option.some.inj (hr'.symm.trans hr'')
  obtain hstage | hnever | hdone := hf
  · -- it looks now, and sees the loss
    have hnext := hon.stage
    rw [hstage] at hnext
    generalize hnew : r'.stage = new at hnext
    cases hnext with
    | kept => exact .inl hnew
    | checked ha | failed ha =>
      subst ha
      have hends := ends_check h hr hstage (h.lost_of_over hover)
      obtain ⟨t, ht, hend⟩ := hends
      rw [hs, Option.some.injEq] at ht
      rw [← ht, hr', Option.map_some, Option.some.injEq] at hend
      exact .inr (.inr hend)
  · have hkept := hon.reply.resolve_right fun hx => absurd (hnever.symm.trans hx.1) (by simp)
    exact .inr (.inl (hkept.trans hnever))
  · have hnext := hon.stage
    rw [hdone] at hnext
    exact .inr (.inr hnext.done)

/-- What holds of a session whatever has happened since it was opened. -/
structure Regular (s : Session) : Prop where
  sound : s.Sound
  orderly : s.Orderly
  settled : s.Settled

lemma regular_empty : Regular {} :=
  ⟨sound_empty, orderly_empty, fun _ _ _ hr => absurd hr (by simp)⟩

/-- Sessions are regular after every step. -/
lemma Regular.step (k : s.Regular) (hs : s.step a = some s') : s'.Regular :=
  ⟨k.sound.step hs, k.orderly.step k.sound hs, settled_of_step k.sound k.orderly k.settled hs⟩

lemma Regular.reaches (k : s.Regular) (h : Reaches s s') : s'.Regular := by
  induction h with
  | refl => exact k
  | step a _ hs ih => exact ih.step hs

/-- A session that is over stays so. -/
lemma isOver_of_reaches (hover : s.isOver = true) (h : Reaches s s') : s'.isOver = true := by
  induction h with
  | refl => exact hover
  | step a _ hs ih => exact isOver_of_step hs ih

/-- A request that is forfeited once the session is over stays forfeited. -/
lemma forfeited_of_reaches (k : s.Regular) (hover : s.isOver = true)
    (hr : s.requests.get? n = some r) (hf : r.Forfeited) (h : Reaches s s') :
    s'.Regular ∧ ∃ r', s'.requests.get? n = some r' ∧ r'.Forfeited := by
  refine ⟨k.reaches h, ?_⟩
  induction h with
  | refl => exact ⟨r, hr, hf⟩
  | step a hm hs ih =>
    obtain ⟨r', hr', hf'⟩ := ih
    have hsound := (k.reaches hm).sound
    obtain ⟨r'', hr'', -⟩ := onward_of_step hsound hr' hs
    exact ⟨r'', hr'', forfeited_of_step hsound (isOver_of_reaches hover hm) hr' hf' hs hr''⟩

/-- The request with number `n` comes to its end when it stops waiting: it has its reply, or learns
that there is none. -/
def Concludes (s : Session) (n : Nat) (r : Request) : Prop :=
  (∃ f, r.Replied n f ∧ s.Ends n (.collect n) (r.demand.kind.interpret f)) ∨
    s.Ends n (.collect n) (.failed .disconnected)

/-- A request that waits for a reply which has come, or never will, can conclude. -/
lemma concludes_of_waiting (h : s.Sound) (hr : s.requests.get? n = some r)
    (hstage : r.stage = .waiting) (hreply : r.reply ≠ .awaited) : s.Concludes n r := by
  cases hold : r.reply with
  | awaited => exact absurd hold hreply
  | arrived f =>
    exact .inl ⟨f, ⟨hold, (h.proper n r hr).arrived f hold⟩, ends_collect hr hstage hold⟩
  | never => exact .inr (ends_forsaken hr hstage hold)

/-- What holds of the request with number `n` once a loop has given up the waiting requests. -/
structure Released (s : Session) (n : Nat) (r : Request) : Prop where
  /-- It waits at no entry. Only a request that has not looked yet can have one. -/
  unheld : r.stage ≠ .entered → ∀ id w, s.pending.get? id = some w → w.request ≠ n
  /-- If it has not looked yet, it sees the loss. -/
  entered : r.stage = .entered → s.Ends n (.check n) (.failed .disconnected)
  /-- If its frame is to join the queue, it fails there, or it joins and the request concludes. -/
  sending : r.stage = .sending →
    (s.isClosed = true → s.Ends n (.enqueue n) (.failed .disconnected)) ∧
    (s.isClosed = false → s.hasRoom = true →
      ∃ s', s.step (.enqueue n) = some s' ∧ s'.Concludes n r)
  waiting : r.stage = .waiting → s.Concludes n r
  /-- It has ended as its reply says, or as disconnected. -/
  done : ∀ o, r.stage = .done o → (∃ f, r.Replied n f ∧ o = r.demand.kind.interpret f) ∨
    o = .failed .disconnected
  /-- Without a reply it never ends otherwise than as disconnected. -/
  forfeited : (∀ f, r.reply ≠ .arrived f) → ∀ s' r' o, Reaches s s' →
    s'.requests.get? n = some r' → r'.stage = .done o → o = .failed .disconnected

/-- Once a session is over, its requests are released. -/
lemma released_of_regular (k : s.Regular) (hover : s.isOver = true)
    (hr : s.requests.get? n = some r) : s.Released n r := by
  have hproper := k.sound.proper n r hr
  -- what awaits its reply has not looked yet
  have hentered : r.stage ≠ .entered → r.reply ≠ .awaited :=
    fun hne hawaited => hne (hproper.entered hover hawaited)
  refine ⟨?_, ?_, ?_, ?_, ?_, ?_⟩
  · intro hne id w hw hn
    exact hentered hne (k.sound.reply_of_pending hw hn hr)
  · intro hstage
    exact ends_check k.sound hr hstage (k.sound.lost_of_over hover)
  · intro hstage
    refine ⟨ends_enqueue k.sound hr hstage, fun hopen hroom => ?_⟩
    obtain ⟨s', hs, hr'⟩ := waits_enqueue hr hstage hopen hroom
    have hwaiting : s'.Concludes n { r with stage := .waiting } :=
      concludes_of_waiting (k.sound.step hs) hr' rfl (hentered (by simp [hstage]))
    exact ⟨s', hs, hwaiting⟩
  · intro hstage
    exact concludes_of_waiting k.sound hr hstage (hentered (by simp [hstage]))
  · intro o hdone
    obtain ⟨f, hreply, ho⟩ | ⟨ho, -⟩ := hproper.done o hdone
    · exact .inl ⟨f, ⟨hreply, hproper.arrived f hreply⟩, ho⟩
    · exact .inr ho
  · intro hnone s' r' o hs hr' hdone
    have hf : r.Forfeited := by
      cases hreply : r.reply with
      | awaited => exact .inl (hproper.entered hover hreply)
      | arrived f => exact absurd hreply (hnone f)
      | never => exact .inr (.inl hreply)
    obtain ⟨k', r'', hr'', hf'⟩ := forfeited_of_reaches k hover hr hf hs
    cases Option.some.inj (hr'.symm.trans hr'')
    obtain hstage | hnever | hend := hf'
    · exact absurd (hstage.symm.trans hdone) (by simp)
    · obtain ⟨f, hreply, -⟩ | ⟨ho, -⟩ := (k'.sound.proper n r' hr').done o hdone
      · exact absurd (hnever.symm.trans hreply) (by simp)
      · exact ho
    · exact (RequestStage.done.inj (hend.symm.trans hdone)).symm

/-- No entry is left of requests that have ended. -/
lemma pending_of_done (k : s.Regular)
    (hdone : ∀ n r, s.requests.get? n = some r → ∃ o, r.stage = .done o) : s.pending = ∅ := by
  refine Table.ext_get? fun id => ?_
  cases hw : s.pending.get? id with
  | none => rfl
  | some w =>
    obtain ⟨-, r, hr, hreply⟩ := k.sound.waiter id w hw
    obtain ⟨o, ho⟩ := hdone w.request r hr
    exact absurd hreply (k.settled w.request r o hr ho)

/-- No request outlives the session, in whatever order requests take their steps, replies come, and
the two loops announce the loss and give up the waiting requests. What holds once a loop has done so
holds from then on, also of requests that begin later. -/
theorem released_of_reaches (h : Reaches {} s) :
    (s.isOver = true → ∀ s', Reaches s s' → s'.isOver = true ∧
      ∀ n r, s'.requests.get? n = some r → s'.Released n r) ∧
    ((∀ n r, s.requests.get? n = some r → ∃ o, r.stage = .done o) → s.pending = ∅) := by
  have k := regular_empty.reaches h
  refine ⟨fun hover s' hs => ?_, pending_of_done k⟩
  have hover' := isOver_of_reaches hover hs
  exact ⟨hover', fun n r hr => released_of_regular (k.reaches hs) hover' hr⟩

lemma Reaches.trans {t : Session} (h : Reaches s t) (h' : Reaches t s') : Reaches s s' := by
  induction h' with
  | refl => exact h
  | step a _ hs ih => exact .step a ih hs

/-- A run gets nowhere that single actions would not get. -/
theorem reaches_run (s : Session) (actions : List SessionAction) : Reaches s (s.run actions) := by
  induction actions generalizing s with
  | nil => exact .refl
  | cons a rest ih =>
    have hrest := ih ((s.step a).getD s)
    rw [run, List.foldl_cons]
    cases hs : s.step a with
    | none =>
      rw [hs] at hrest
      exact hrest
    | some s' =>
      rw [hs] at hrest
      exact (Reaches.step a .refl hs).trans hrest

/-- Requests are on their way when the stream ends: the first one waits, the second one is to join
the queue, the third one begins after the loss has been announced, and the fourth one when it is all
over. -/
def departure : List SessionAction :=
  [.begin (.call "a" {}), .check 0, .enqueue 0, .begin (.provide "b" .exact 0), .check 1,
    .read .ended, .announce .reader, .begin (.unprovide 7), .giveUp .reader, .begin (.call "d" {})]

/-- All four end as disconnected, and no entry is left. -/
theorem released_of_departure :
    let s := ({} : Session).run departure
    let t := s.run [.check 3, .check 2, .enqueue 1, .collect 1, .collect 0]
    s.isOver = true ∧ s.requests.keys = [0, 1, 2, 3] ∧ s.pending.keys = [4] ∧
      (∀ n r, s.requests.get? n = some r → s.Released n r) ∧
      t.requests.values.map Request.stage = List.replicate 4 (.done (.failed .disconnected)) ∧
      t.pending = ∅ := by
  intro s t
  have hs : Reaches {} s := reaches_run _ _
  have ht : Reaches {} t := by
    have hrun : t = ({} : Session).run (departure ++
        [.check 3, .check 2, .enqueue 1, .collect 1, .collect 0]) := by
      simp [t, s, run]
    rw [hrun]
    exact reaches_run _ _
  have hover : s.isOver = true := by decide +kernel
  have hends : t.requests.values.map Request.stage
      = List.replicate 4 (.done (.failed .disconnected)) := by decide +kernel
  refine ⟨hover, by decide +kernel, by decide +kernel,
    (((released_of_reaches hs).1 hover) s .refl).2, hends, (released_of_reaches ht).2 ?_⟩
  intro n r hr
  have hmem : r.stage ∈ t.requests.values.map Request.stage :=
    List.mem_map.2 ⟨r, List.mem_map.2 ⟨(n, r), Table.mem_entries_iff.2 hr, rfl⟩, rfl⟩
  rw [hends] at hmem
  exact ⟨_, List.eq_of_mem_replicate hmem⟩

end Session
end Switchboard
