import Switchboard.Proofs.Session.Requests

/-!
# Frames on their way out

What joins the queue of a session are the frames of its requests and the answers to its invocations.

* `Session.pushes` is what an action adds to the queue, and `queued_of_step` says that it adds
  nothing else.
* `given_of_step` is what an action makes of an invocation: the first reply stays, and its answer
  joins the queue once.
* `Session.Orderly` says that each request has one frame at most, its own. `orderly_of_step` keeps
  it.
-/

namespace Switchboard

/-- The request that a frame makes. -/
def Frame.asks? : Frame → Option UInt64
  | .call request .. | .register request .. | .unregister request _ => some request
  | _ => none

/-- The invocation that a frame answers. -/
def Frame.tells? : Frame → Option UInt64
  | .yield request .. | .error request _ => some request
  | _ => none

@[simp] lemma Demand.asks?_frame (d : Demand) (id : UInt64) : (d.frame id).asks? = some id := by
  cases d <;> rfl

@[simp] lemma Demand.tells?_frame (d : Demand) (id : UInt64) : (d.frame id).tells? = none := by
  cases d <;> rfl

/-- The answer to an invocation carries its number. -/
theorem Given.answer?_tells {g : Given} {f : Frame} (h : g.answer? = some f) :
    f.tells? = some g.request ∧ f.asks? = none := by
  unfold Given.answer? at h
  split at h
  · exact absurd h (by simp)
  all_goals
    rw [← Option.some.inj h]
    exact ⟨rfl, rfl⟩

/-- What an action may make of the invocation with number `i`. -/
inductive Given.Onward (a : SessionAction) (i : Nat) (g : Given) : Given → Prop
  | kept (hc : ∀ reply, a ≠ .complete i reply) (hd : a ≠ .drop i) (ha : a ≠ .answer i) :
    Onward a i g g
  | completed (reply : Reply) (h : a = .complete i reply) :
    Onward a i g { g with slot := g.slot.answer reply }
  | dropped (h : a = .drop i) : Onward a i g { g with slot := g.slot.abandon }
  | told {f : Frame} (h : a = .answer i) (ht : g.told = false) (hf : g.answer? = some f) :
    Onward a i g { g with told := true }

/-- The frames of the request with number `n`: none until it is sent, and then its own, which may go
when the writer ends. A request that fails because the session is lost may have none. -/
def Request.Sent (r : Request) (n : Nat) (working : Prop) (frames : List Frame) : Prop :=
  let own := [r.demand.frame (Session.requestId n)]
  match r.stage with
  | .entered | .sending => frames = []
  | .waiting => frames.Sublist own ∧ (working → frames = own)
  | .done o => frames.Sublist own ∧ (working → frames = own ∨ o = .failed .disconnected)

/-- With the end of the writer frames may go. -/
theorem Request.Sent.lost {r : Request} {n : Nat} {working working' : Prop}
    {frames frames' : List Frame} (h : r.Sent n working frames) (hf : frames'.Sublist frames)
    (hw : ¬working') : r.Sent n working' frames' := by
  unfold Request.Sent at h ⊢
  cases hstage : r.stage with
  | entered | sending =>
    rw [hstage] at h
    exact List.sublist_nil.1 (h ▸ hf)
  | waiting | done =>
    rw [hstage] at h
    exact ⟨hf.trans h.1, fun hx => absurd hx hw⟩

lemma Request.Sent.mono {r : Request} {n : Nat} {working working' : Prop} {frames : List Frame}
    (h : r.Sent n working frames) (hw : working' → working) : r.Sent n working' frames := by
  unfold Request.Sent at h ⊢
  cases hstage : r.stage with
  | entered | sending =>
    rw [hstage] at h
    exact h
  | waiting | done =>
    rw [hstage] at h
    exact ⟨h.1, fun hx => h.2 (hw hx)⟩

namespace Session

variable {s s' : Session} {a : SessionAction}

/-! ## The queue -/

/-- The frames that an action adds to the queue. -/
def pushes (s : Session) : SessionAction → List Frame
  | .enqueue n =>
    match s.requests.get? n with
    | some ⟨demand, .sending, _⟩ => if s.isClosed then [] else [demand.frame (requestId n)]
    | _ => []
  | .read (.line text) =>
    match frameOf? text with
    | some (.invocation request registration _ _ _) =>
      if (s.handlers.get? registration).isNone && !s.isClosed && s.hasRoom then
        [noHandler request registration]
      else []
    | _ => []
  | .answer i => if s.isClosed then [] else ((s.given[i]?).bind Given.answer?).toList
  | _ => []

lemma queued_push (s : Session) (f : Frame) : (s.push f).queued = s.queued ++ [f] :=
  (List.append_assoc ..).symm

lemma queued_forsake (s : Session) (id : UInt64) : (s.forsake id).queued = s.queued := by
  unfold forsake
  split <;> rfl

/-- A frame that is read queues what it is answered with. -/
lemma queued_of_dispatch {text : List Char} {f : Frame} (hf : frameOf? text = some f)
    (hd : s.Dispatch f s') : s'.queued = s.queued ++ s.pushes (.read (.line text)) := by
  -- in all cases but one nothing is said
  have hkept : s.pushes (.read (.line text)) = [] →
      s.queued = s.queued ++ s.pushes (.read (.line text)) := fun hl => by
    rw [hl, List.append_nil]
  cases hd with
  | delivered hid =>
    refine hkept ?_
    simp only [pushes, hf]
    cases f with
    | invocation => exact absurd hid (by simp [Frame.replyTo])
    | _ => rfl
  | given hinvoke hh =>
    refine hkept ?_
    simp only [pushes, hf, hinvoke, hh]
    rfl
  | @unhandled request registration _ _ _ hinvoke hh hopen hroom =>
    have hpush : s.pushes (.read (.line text)) = [noHandler request registration] := by
      simp only [pushes, hf, hinvoke, hh, hopen, hroom]
      rfl
    rw [hpush]
    exact queued_push s _
  | ignored hignored =>
    refine hkept ?_
    simp only [pushes, hf]
    cases f with
    | invocation =>
      obtain ⟨hh, hroom⟩ := hignored _ _ _ _ _ rfl
      simp only [hh]
      cases hopen : s.isClosed with
      | true => rfl
      | false =>
        rw [hroom hopen]
        rfl
    | _ => rfl

/-- The queue has grown by some frames, or the writer has ended and frames may be lost. -/
def Extended (s : Session) (l : List Frame) (s' : Session) : Prop :=
  (s'.queued = s.queued ++ l ∧ (s'.writer = .working → s.writer = .working)) ∨
    (s'.writer ≠ .working ∧ s'.queued.Sublist s.queued)

lemma extended_of_eq (hq : s'.queued = s.queued) (hw : s'.writer = s.writer) :
    s.Extended [] s' :=
  .inl ⟨by rw [hq, List.append_nil], fun h => hw ▸ h⟩

lemma extended_failRequest (s : Session) (n : Nat) : s.Extended [] (s.failRequest n) :=
  extended_of_eq (queued_forsake s _) (Sound.forsake_fields s _).2.2.2

lemma extended_of_push (f : Frame) (hq : s'.queued = (s.push f).queued)
    (hw : s'.writer = s.writer) : s.Extended [f] s' :=
  .inl ⟨hq.trans (queued_push s f), fun h => hw ▸ h⟩

/-- Reading does not concern the writing loop. -/
lemma writer_of_dispatch {f : Frame} (hd : s.Dispatch f s') : s'.writer = s.writer := by
  cases hd <;> rfl

/-- What joins the queue for a request is its frame, unless the queue takes none any more. -/
theorem pushes_enqueue {n : Nat} {r : Request} (hr : s.requests.get? n = some r)
    (hstage : r.stage = .sending) : s.pushes (.enqueue n)
      = if s.isClosed then [] else [r.demand.frame (requestId n)] := by
  obtain ⟨demand, stage, reply⟩ := r
  cases hstage
  simp only [pushes, hr]

/-- What joins the queue for an invocation is its answer, unless the queue takes none any more. -/
theorem pushes_answer {i : Nat} {g : Given} {f : Frame} (hg : s.given[i]? = some g)
    (hf : g.answer? = some f) : s.pushes (.answer i) = if s.isClosed then [] else [f] := by
  simp only [pushes, hg, Option.bind_some, hf, Option.toList_some]

/-- An action adds what it is said to add, and nothing is lost unless the writer ends. -/
theorem extended_of_step (hs : s.step a = some s') : s.Extended (s.pushes a) s' := by
  cases change_of_step hs with
  | begun => exact extended_of_eq (queued_forsake s _) (Sound.forsake_fields s _).2.2.2
  | failed => exact extended_failRequest s _
  | sent hr hstage hopen =>
    rw [pushes_enqueue hr hstage, hopen]
    exact extended_of_push _ rfl rfl
  | refused hr hstage hclosed =>
    rw [pushes_enqueue hr hstage, hclosed]
    exact extended_failRequest s _
  | ignored _ hf =>
    simp only [pushes, hf]
    exact extended_of_eq rfl rfl
  | heard _ hf hd =>
    exact .inl ⟨queued_of_dispatch hf hd, fun hw => writer_of_dispatch hd ▸ hw⟩
  | @stopped event _ hevent =>
    cases event with
    | line text => exact absurd rfl (hevent text)
    | damaged | ended => exact extended_of_eq rfl rfl
  | answered hg _ hf hopen =>
    rw [pushes_answer hg hf, hopen]
    exact extended_of_push _ rfl rfl
  | unanswered hg _ hf hclosed =>
    rw [pushes_answer hg hf, hclosed]
    exact extended_of_eq rfl rfl
  | wrote _ hq =>
    refine extended_of_eq ?_ rfl
    simp [queued, hq]
  | unwritten _ hq =>
    refine .inr ⟨by simp, ?_⟩
    rw [queued, queued, hq]
    exact (List.sublist_cons_self _ _).append_left _
  | writerLost =>
    exact .inl ⟨(List.append_nil _).symm, fun hw => absurd hw (by simp)⟩
  | writerOver =>
    -- the queue goes with the writer
    refine .inr ⟨by simp, ?_⟩
    rw [queued, queued, List.append_nil]
    exact List.sublist_append_left _ _
  | checked | collected | forsaken | completed | dropped | readerLost | readerOver =>
    exact extended_of_eq rfl rfl

/-! ## Invocations -/

lemma given_forsake (s : Session) (id : UInt64) : (s.forsake id).given = s.given := by
  unfold forsake
  split <;> rfl

/-- An answer joins the queue for an invocation that has not been answered. -/
theorem answer_cases {j : Nat} (hs : s.answer j = some s') :
    ∃ g f, s.given[j]? = some g ∧ g.told = false ∧ g.answer? = some f ∧
      s'.given = (s.tell j).given := by
  have hchange : s.Change (.answer j) s' := change_of_step hs
  cases hchange with
  | answered hg ht hf | unanswered hg ht hf => exact ⟨_, _, hg, ht, hf, rfl⟩

/-- A change of one invocation leaves the others. -/
lemma getElem?_modifyGiven (s : Session) (i j : Nat) (f : Given → Given) :
    (s.modifyGiven j f).given[i]? = if j = i then (s.given[i]?).map f else s.given[i]? := by
  rw [modifyGiven, List.getElem?_modify]
  split <;> simp

/-- What one action makes of an invocation. -/
theorem onward_given {i : Nat} {g : Given} (hg : s.given[i]? = some g) (hs : s.step a = some s') :
    ∃ g', s'.given[i]? = some g' ∧ g.Onward a i g' := by
  have hmodify : ∀ {j : Nat} {f : Given → Given}, (j = i → g.Onward a i (f g)) →
      (j ≠ i → g.Onward a i g) → ∃ g', (s.modifyGiven j f).given[i]? = some g' ∧
        g.Onward a i g' := by
    intro j f hthis hother
    rw [getElem?_modifyGiven, hg]
    split
    · next hji => exact ⟨f g, rfl, hthis hji⟩
    · next hji => exact ⟨g, rfl, hother hji⟩
  -- an answer is about the invocation as it is
  have htold : ∀ {j : Nat} {x : Given} {f : Frame}, a = .answer j → s.given[j]? = some x →
      x.told = false → x.answer? = some f → ∃ g', (s.tell j).given[i]? = some g' ∧
        g.Onward a i g' := by
    intro j x f ha hx ht hf
    refine hmodify (fun hji => ?_) fun hji =>
      .kept (by simp [ha]) (by simp [ha]) (by simp [ha, hji])
    rw [hji, hg] at hx
    cases Option.some.inj hx
    exact .told (by rw [ha, hji]) ht hf
  cases change_of_step hs with
  | completed reply =>
    refine hmodify (fun hji => .completed reply (by rw [hji])) fun hji => ?_
    exact .kept (by simp [hji]) (by simp) (by simp)
  | dropped =>
    refine hmodify (fun hji => .dropped (by rw [hji])) fun hji => ?_
    exact .kept (by simp) (by simp [hji]) (by simp)
  | answered hx ht hf | unanswered hx ht hf => exact htold rfl hx ht hf
  | heard _ _ hd =>
    refine ⟨g, ?_, .kept (by simp) (by simp) (by simp)⟩
    cases hd with
    | given =>
      change (s.given ++ [_])[i]? = some g
      rw [List.getElem?_append_left (List.getElem?_eq_some_iff.1 hg).1, hg]
    | _ => exact hg
  | begun | failed | refused =>
    refine ⟨g, ?_, .kept (by simp) (by simp) (by simp)⟩
    change (s.forsake _).given[i]? = some g
    rw [given_forsake, hg]
  | _ => exact ⟨g, hg, .kept (by simp) (by simp) (by simp)⟩

/-- An invocation that is new comes last, and from a frame that has been read. -/
theorem given_new {i : Nat} {g : Given} (hnone : s.given[i]? = none) (hg : s'.given[i]? = some g)
    (hs : s.step a = some s') :
    i = s.given.length ∧ ∃ text request registration procedure args kwargs handler,
      a = .read (.line text) ∧
        frameOf? text = some (.invocation request registration procedure args kwargs) ∧
        s.handlers.get? registration = some handler ∧
        g = { request, registration, handler, invocation := ⟨procedure, args, kwargs⟩ } := by
  have hmodify : ∀ j f, (s.modifyGiven j f).given[i]? ≠ some g := fun j f he => by
    rw [getElem?_modifyGiven, hnone] at he
    split at he <;> exact absurd he (by simp)
  cases change_of_step hs with
  | completed | dropped | answered | unanswered => exact absurd hg (hmodify _ _)
  | @heard text _ _ _ hf hd =>
    cases hd with
    | given hinvoke hh =>
      have hle := List.getElem?_eq_none_iff.1 hnone
      rw [List.getElem?_append_right hle, List.getElem?_singleton] at hg
      split at hg
      · next hi =>
        rw [hinvoke] at hf
        exact ⟨by omega, text, _, _, _, _, _, _, rfl, hf, hh, (Option.some.inj hg).symm⟩
      · exact absurd hg (by simp)
    | _ => exact absurd (hnone.symm.trans hg) (by simp)
  | begun | failed | refused =>
    change (s.forsake _).given[i]? = some g at hg
    rw [given_forsake, hnone] at hg
    exact absurd hg (by simp)
  | _ => exact absurd (hnone.symm.trans hg) (by simp)

/-! ## The frames of requests -/

/-- The frames in the queue that make the request with number `n`. -/
def asked (s : Session) (n : Nat) : List Frame :=
  s.queued.filter fun f => f.asks? = some (requestId n)

/-- Every frame that makes a request is that of one request, as long as there are enough numbers. -/
structure Orderly (s : Session) : Prop where
  present : ∀ n, n < s.count → ∃ r, s.requests.get? n = some r
  asked_lt : ∀ f ∈ s.queued, ∀ id, f.asks? = some id → ∃ n, n < s.count ∧ requestId n = id
  sent : s.count ≤ 2 ^ 64 →
    ∀ n r, s.requests.get? n = some r → r.Sent n (s.writer = .working) (s.asked n)

/-- A frame that an action adds and that makes a request is that of the request it sends. -/
lemma asks_of_pushes {f : Frame} {id : UInt64} (hf : f ∈ s.pushes a) (hid : f.asks? = some id) :
    ∃ n demand reply, a = .enqueue n ∧ s.requests.get? n = some ⟨demand, .sending, reply⟩ ∧
      f = demand.frame (requestId n) := by
  cases a with
  | enqueue n =>
    simp only [pushes] at hf
    split at hf
    · next demand reply hr =>
      split at hf
      · exact absurd hf (by simp)
      · exact ⟨n, demand, reply, rfl, hr, List.mem_singleton.1 hf⟩
    · exact absurd hf (by simp)
  | read event =>
    cases event with
    | line text =>
      simp only [pushes] at hf
      split at hf
      · split at hf
        · rw [List.mem_singleton.1 hf] at hid
          exact absurd hid (by simp [noHandler, Frame.asks?])
        · exact absurd hf (by simp)
      · exact absurd hf (by simp)
    | _ => exact absurd hf (by simp [pushes])
  | answer i =>
    simp only [pushes] at hf
    split at hf
    · exact absurd hf (by simp)
    · rw [Option.mem_toList, Option.bind_eq_some_iff] at hf
      obtain ⟨g, -, hg⟩ := hf
      exact absurd hid (by simp [(Given.answer?_tells hg).2])
  | _ => exact absurd hf (by simp [pushes])

/-- Only a request that begins takes a number. -/
theorem count_of_step (hs : s.step a = some s') :
    s'.count = s.count ∨ ∃ demand, a = .begin demand ∧ s' = s.begin demand := by
  cases change_of_step hs with
  | begun demand => exact .inr ⟨demand, rfl, rfl⟩
  | failed | refused => exact .inl (Sound.forsake_fields s _).1
  | heard _ _ hd => cases hd <;> exact .inl rfl
  | _ => exact .inl rfl

/-- A new request stands under the number that was next. -/
lemma get?_begin_count (s : Session) (demand : Demand) :
    (s.begin demand).requests.get? s.count = some { demand } := by
  have hcount := (Sound.forsake_fields s (requestId s.count)).1
  change ((s.forsake _).requests.insert (s.forsake _).count _).get? s.count = _
  rw [hcount, Table.get?_insert, if_pos rfl]

/-- An action that does not send a request adds no frame of it, as long as there are enough
numbers. -/
lemma filter_pushes {n : Nat} {r : Request} (h : s.Sound) (hr : s.requests.get? n = some r)
    (hle : s.count ≤ 2 ^ 64) (ha : a ≠ .enqueue n) :
    (s.pushes a).filter (fun f => f.asks? = some (requestId n)) = [] := by
  rw [List.filter_eq_nil_iff]
  intro f hf hid
  rw [decide_eq_true_eq] at hid
  obtain ⟨m, demand, reply, rfl, hm, rfl⟩ := asks_of_pushes hf hid
  rw [Demand.asks?_frame, Option.some.injEq, requestId_eq_iff] at hid
  have hm := (h.proper m _ hm).lt
  have hn := (h.proper n _ hr).lt
  have hmn : m = n := by omega
  exact ha (by rw [hmn])

/-- A request sends its frame when it comes to wait, and at no other time. -/
lemma sent_of_onward {n : Nat} {r r' : Request} (h : s.Sound) (hr : s.requests.get? n = some r)
    (hle : s.count ≤ 2 ^ 64) (hsent : r.Sent n (s.writer = .working) (s.asked n))
    (hon : r.Onward a n s.isClosed r') : r'.Sent n (s.writer = .working)
      (s.asked n ++ (s.pushes a).filter fun f => f.asks? = some (requestId n)) := by
  have hstage := hon.stage
  have hkept : a ≠ .enqueue n →
      s.asked n ++ (s.pushes a).filter (fun f => f.asks? = some (requestId n)) = s.asked n :=
    fun ha => by rw [filter_pushes h hr hle ha, List.append_nil]
  unfold Request.Sent at hsent ⊢
  rw [hon.demand]
  generalize hold : r.stage = old at hstage hsent
  generalize r'.stage = new at hstage
  cases hstage with
  | kept _ ha =>
    rw [hkept ha]
    exact hsent
  | checked ha =>
    rw [hkept (by rw [ha]; simp)]
    exact hsent
  | failed ha =>
    have hnil : s.asked n = [] := hsent
    rw [hkept (by rw [ha]; simp), hnil]
    exact ⟨List.nil_sublist _, fun _ => .inr rfl⟩
  | sent ha hopen =>
    -- the frame joins the queue
    have hpush : s.pushes a = [r.demand.frame (requestId n)] := by
      rw [ha, pushes_enqueue hr hold, hopen]
      rfl
    have hnil : s.asked n = [] := hsent
    rw [hnil, hpush, List.nil_append, List.filter_cons_of_pos (by simp), List.filter_nil]
    exact ⟨List.Sublist.refl _, fun _ => rfl⟩
  | refused ha hc =>
    have hnil : s.asked n = [] := hsent
    have hpush : s.pushes a = [] := by
      rw [ha, pushes_enqueue hr hold, hc]
      rfl
    rw [hnil, hpush]
    exact ⟨List.nil_sublist _, fun _ => .inr rfl⟩
  | collected _ ha =>
    rw [hkept (by rw [ha]; simp)]
    exact ⟨hsent.1, fun hw => .inl (hsent.2 hw)⟩

lemma count_begin (s : Session) (demand : Demand) : (s.begin demand).count = s.count + 1 :=
  congrArg (· + 1) (Sound.forsake_fields s (requestId s.count)).1

/-- No frame is that of the next request, as long as there are enough numbers. -/
lemma Orderly.asked_count (o : s.Orderly) (hle : s.count < 2 ^ 64) : s.asked s.count = [] := by
  rw [asked, List.filter_eq_nil_iff]
  intro f hf hid
  rw [decide_eq_true_eq] at hid
  obtain ⟨m, hm, hid'⟩ := o.asked_lt f hf _ hid
  have hadd := add_le_of_requestId_eq hid' hm
  omega

/-- What has joined the queue of a session stays in order. -/
theorem Orderly.step (o : s.Orderly) (h : s.Sound) (hs : s.step a = some s') : s'.Orderly := by
  have hext := extended_of_step hs
  have hcount : s.count ≤ s'.count := by
    obtain he | ⟨demand, -, rfl⟩ := count_of_step hs
    · exact Nat.le_of_eq he.symm
    · rw [count_begin]
      exact Nat.le_succ _
  -- every request there is has a number below the count
  have hlt : ∀ n r, s.requests.get? n = some r → n < s.count := fun n r hr => (h.proper n r hr).lt
  refine ⟨fun n hn => ?_, fun f hf id hid => ?_, fun hle n r' hr' => ?_⟩
  · by_cases hold : n < s.count
    · obtain ⟨r, hr⟩ := o.present n hold
      obtain ⟨r', hr', -⟩ := onward_of_step h hr hs
      exact ⟨r', hr'⟩
    · obtain he | ⟨demand, -, rfl⟩ := count_of_step hs
      · exact absurd (he ▸ hn) hold
      · -- the request that has just begun
        rw [count_begin] at hn
        have hn' : n = s.count := by omega
        rw [hn', get?_begin_count]
        exact ⟨_, rfl⟩
  · have hmem : f ∈ s.queued ∨ f ∈ s.pushes a := by
      obtain ⟨hq, -⟩ | ⟨-, hq⟩ := hext
      · rw [hq] at hf
        exact List.mem_append.1 hf
      · exact .inl (hq.subset hf)
    rcases hmem with hmem | hmem
    · obtain ⟨n, hn, hid'⟩ := o.asked_lt f hmem id hid
      exact ⟨n, Nat.lt_of_lt_of_le hn hcount, hid'⟩
    · -- a frame that is new is that of a request which is there
      obtain ⟨n, demand, reply, -, hr, rfl⟩ := asks_of_pushes hmem hid
      rw [Demand.asks?_frame, Option.some.injEq] at hid
      exact ⟨n, Nat.lt_of_lt_of_le (hlt n _ hr) hcount, hid⟩
  · -- what there is of the request when nothing goes with the writer
    have hall : r'.Sent n (s.writer = .working)
        (s.asked n ++ (s.pushes a).filter fun f => f.asks? = some (requestId n)) := by
      have hle' := Nat.le_trans hcount hle
      by_cases hold : n < s.count
      · obtain ⟨r, hr⟩ := o.present n hold
        obtain ⟨r'', hr'', hon⟩ := onward_of_step h hr hs
        rw [hr'] at hr''
        rw [Option.some.inj hr'']
        exact sent_of_onward h hr hle' (o.sent hle' n r hr) hon
      · -- a request that is new has no frame yet
        have hn := ((h.step hs).proper n r' hr').lt
        obtain he | ⟨demand, rfl, rfl⟩ := count_of_step hs
        · exact absurd (he ▸ hn) hold
        · rw [count_begin] at hn hle
          have hn' : n = s.count := by omega
          rw [hn', get?_begin_count] at hr'
          rw [← Option.some.inj hr', hn', o.asked_count (by omega)]
          rfl
    obtain ⟨hq, hworking⟩ | ⟨hnot, hq⟩ := hext
    · rw [asked, hq, List.filter_append]
      exact hall.mono hworking
    · exact hall.lost ((hq.filter _).trans (List.sublist_append_left _ _)) hnot

/-- A session that has just been opened has no frames. -/
theorem orderly_empty : Orderly {} := by
  refine ⟨fun n hn => ?_, fun f hf => ?_, fun _ n r hr => ?_⟩
  · exact absurd hn (Nat.not_lt_zero n)
  · exact absurd hf (by simp [queued])
  · exact absurd hr (by simp)

end Session
end Switchboard
