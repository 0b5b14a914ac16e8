import Switchboard.Proofs.Session.Matching
import Switchboard.Proofs.Store.History

/-!
# Who handles a registration

The handler that a request provides waits at the entry of the request. It is installed when the
frame that answers the request is read and grants a registration, and it stays until the
registration is to be withdrawn, or until the router gives its number to another handler.

* `Session.Installs` is an action that installs a handler, and `Session.Decides` one that installs a
  handler or withdraws the registration.
* `Session.Heeded` says that entries hold the handlers of their requests. `Heeded.step` keeps it.
* `handlers_of_step` says what one action makes of the handlers, and `handlers_of_past` that the
  latest action that decides about a registration tells its handler.
* `handled_of_past` is what follows for the invocations that are read.
-/

namespace Switchboard

/-- The frame in which an invocation has come. -/
def Given.origin (g : Given) : Frame :=
  .invocation g.request g.registration g.invocation.procedure g.invocation.args g.invocation.kwargs

namespace Session

/-- The action reads the frame that grants the registration to a waiting request, and the request
provides the handler. -/
def Installs (s : Session) (registration : UInt64) (handler : HandlerId) (a : SessionAction) :
    Prop :=
  ∃ text n r pattern mode, a = .read (.line text) ∧
    frameOf? text = some (.registered (requestId n) registration) ∧
    s.requests.get? n = some r ∧ r.reply = .awaited ∧ r.demand = .provide pattern mode handler

/-- The action decides about the registration: it installs a handler for it or withdraws it. -/
def Decides (s : Session) (registration : UInt64) (a : SessionAction) : Prop :=
  (∃ handler, s.Installs registration handler a) ∨ a = .begin (.unprovide registration)

/-- The latest action that has decided about the registration has installed the handler. -/
def Stands (l : List (Session × SessionAction)) (registration : UInt64) (handler : HandlerId) :
    Prop :=
  Since (fun p => p.1.Installs registration handler p.2) (fun p => p.1.Decides registration p.2) l

variable {s s' : Session} {a : SessionAction} {l : List (Session × SessionAction)}
  {registration : UInt64} {handler : HandlerId}

/-! ## Entries -/

/-- Every entry holds the handler that its request provides. -/
def Heeded (s : Session) : Prop :=
  ∀ id w r, s.pending.get? id = some w → s.requests.get? w.request = some r →
    w.handler = r.demand.handler?

/-- What still waits for an answer waited before. -/
lemma pending_of_forsake {id request : UInt64} {w : Waiter}
    (h : (s.forsake request).pending.get? id = some w) : s.pending.get? id = some w := by
  unfold forsake at h
  split at h
  · exact h
  · exact Table.get?_of_get?_erase h

/-- An entry is an old one, or that of a request that has just begun. -/
theorem pending_of_step (hs : s.step a = some s') {id : UInt64} {w : Waiter}
    (hw : s'.pending.get? id = some w) :
    s.pending.get? id = some w ∨
      ∃ demand, a = .begin demand ∧ w = ⟨s.count, demand.handler?⟩ := by
  cases change_of_step hs with
  | begun demand =>
    have hcount := (Sound.forsake_fields s (requestId s.count)).1
    have hpending : (s.begin demand).pending
        = (s.forsake (requestId s.count)).pending.insert (requestId s.count)
          ⟨s.count, demand.handler?⟩ := by
      simp only [begin, hcount]
    rw [hpending] at hw
    obtain ⟨-, rfl⟩ | hw := Table.get?_of_get?_insert hw
    · exact .inr ⟨demand, rfl, rfl⟩
    · exact .inl (pending_of_forsake hw)
  | failed | refused => exact .inl (pending_of_forsake hw)
  | heard _ _ hd =>
    cases hd with
    | delivered => exact .inl (Table.get?_of_get?_erase hw)
    | _ => exact .inl hw
  | readerOver | writerOver => exact absurd hw (by simp)
  | _ => exact .inl hw

lemma heeded_empty : Heeded {} := fun _ _ _ hw _ => absurd hw (by simp)

/-- Handlers are heeded after every step. -/
theorem Heeded.step (k : s.Heeded) (h : s.Sound) (hs : s.step a = some s') : s'.Heeded := by
  intro id w r' hw hr'
  obtain hw | ⟨demand, rfl, rfl⟩ := pending_of_step hs hw
  · obtain ⟨-, r, hr, -⟩ := h.waiter id w hw
    obtain ⟨r'', hr'', honward⟩ := onward_of_step h hr hs
    obtain rfl := Option.some.inj (hr'.symm.trans hr'')
    rw [k id w r hw hr, honward.demand]
  · obtain rfl : s.begin demand = s' := Option.some.inj hs
    rw [get?_begin_count] at hr'
    rw [← Option.some.inj hr']

lemma heeded_of_past (h : Past l s) : s.Heeded := by
  induction h with
  | started => exact heeded_empty
  | step h hs ih => exact ih.step (sound_of_past h) hs

/-! ## One action -/

lemma handlers_forsake (s : Session) (id : UInt64) : (s.forsake id).handlers = s.handlers := by
  unfold forsake
  split <;> rfl

/-- A request to withdraw a registration takes its handler away at once. -/
lemma handlers_begin (s : Session) (demand : Demand) (registration : UInt64) :
    (s.begin demand).handlers.get? registration
      = if demand = .unprovide registration then none else s.handlers.get? registration := by
  have hold := handlers_forsake s (requestId s.count)
  cases demand with
  | unprovide withdrawn =>
    simp only [begin, hold, Table.get?_erase, Demand.unprovide.injEq, eq_comm]
  | _ => simp [begin, hold]

/-- The frame grants the registration, and finds an entry that holds the handler. -/
def Registers (s : Session) (f : Frame) (registration : UInt64) (handler : HandlerId) : Prop :=
  ∃ id w, f = .registered id registration ∧ s.pending.get? id = some w ∧ w.handler = some handler

/-- The handler that is installed is the one at the entry that the frame finds. -/
lemma installs_read_iff (h : s.Sound) (k : s.Heeded) {text : List Char} {f : Frame}
    (hf : frameOf? text = some f) :
    s.Installs registration handler (.read (.line text)) ↔
      s.Registers f registration handler := by
  constructor
  · rintro ⟨_, n, r, pattern, mode, ha, htext, hr, hawaited, hdemand⟩
    obtain rfl := LineEvent.line.inj (SessionAction.read.inj ha)
    obtain ⟨w, hw, rfl⟩ := h.awaited n r hr hawaited
    refine ⟨_, w, Option.some.inj (hf.symm.trans htext), hw, ?_⟩
    rw [k _ w r hw hr, hdemand, Demand.handler?]
  · rintro ⟨id, w, rfl, hw, hhandler⟩
    obtain ⟨rfl, r, hr, hawaited⟩ := h.waiter id w hw
    rw [k _ w r hw hr] at hhandler
    cases hdemand : r.demand with
    | provide pattern mode provided =>
      rw [hdemand] at hhandler
      obtain rfl := Option.some.inj hhandler
      exact ⟨text, w.request, r, pattern, mode, rfl, hf, hr, hawaited, hdemand⟩
    | call | unprovide =>
      rw [hdemand] at hhandler
      exact absurd hhandler (by simp [Demand.handler?])

lemma handlers_invoke (s : Session) (request registration : UInt64) (i : Invocation) :
    (s.invoke request registration i).handlers = s.handlers := by
  unfold invoke
  split
  · rfl
  · split <;> rfl

/-- Only the answer to a registration installs a handler. -/
lemma handlers_deliver_of_ne {f : Frame} (id : UInt64)
    (hf : ∀ id registration, f ≠ .registered id registration) :
    (s.deliver id f).handlers = s.handlers := by
  unfold deliver
  split
  · rfl
  · split
    · exact absurd rfl (hf _ _)
    · rfl

/-- What a frame makes of the handlers. -/
lemma handlers_dispatch (s : Session) (f : Frame) (registration : UInt64)
    (handler : HandlerId) :
    (s.dispatch f).handlers.get? registration = some handler ↔
      s.Registers f registration handler ∨
        ((∀ other, ¬s.Registers f registration other) ∧
          s.handlers.get? registration = some handler) := by
  by_cases hkind : ∀ id granted, f ≠ .registered id granted
  · -- a frame of another kind
    have hnone : ∀ other, ¬s.Registers f registration other := by
      rintro other ⟨id, w, hf, -⟩
      exact hkind id registration hf
    have hsame : (s.dispatch f).handlers = s.handlers := by
      unfold dispatch
      split
      · exact handlers_deliver_of_ne _ hkind
      · split
        · exact handlers_invoke ..
        · rfl
    rw [hsame]
    simp [hnone]
  · simp only [ne_eq, not_forall, not_not] at hkind
    obtain ⟨id, granted, rfl⟩ := hkind
    -- a registration installs what its request has left with the waiter
    have hregisters : ∀ other, s.Registers (.registered id granted) registration other ↔
        registration = granted ∧ ∃ w, s.pending.get? id = some w ∧ w.handler = some other := by
      simp [Registers, and_assoc, eq_comm]
    have hdispatch : s.dispatch (.registered id granted) = s.deliver id (.registered id granted) :=
      rfl
    simp only [hregisters, hdispatch, deliver]
    cases hw : s.pending.get? id with
    | none => simp
    | some w =>
      cases hhandler : w.handler with
      | none => simp [hhandler]
      | some installed =>
        by_cases hr : registration = granted <;> simp [hr, hhandler, Table.get?_insert]

/-- What is neither a frame nor a request to withdraw decides nothing about a handler. -/
lemma not_decides (hframe : a.frame? = none) (hbegin : a ≠ .begin (.unprovide registration)) :
    ¬s.Decides registration a := by
  rintro (⟨_, text, _, _, _, _, rfl, hf, -⟩ | ha)
  · exact absurd (hf.symm.trans hframe) (by simp)
  · exact hbegin ha

/-- What decides nothing about a handler leaves the table as it is. -/
lemma handlers_of_quiet (hnot : ¬s.Decides registration a) (hsame : s'.handlers = s.handlers) :
    s'.handlers.get? registration = some handler ↔
      s.Installs registration handler a ∨
        (¬s.Decides registration a ∧ s.handlers.get? registration = some handler) := by
  have hinstalls : ¬s.Installs registration handler a := fun h => hnot (.inl ⟨handler, h⟩)
  simp [hinstalls, hnot, hsame]

/-- An action that does not decide about a registration leaves its handler as it is, and one that
does installs a handler or leaves none. -/
theorem handlers_of_step (h : s.Sound) (k : s.Heeded) (hs : s.step a = some s')
    (registration : UInt64) (handler : HandlerId) :
    s'.handlers.get? registration = some handler ↔
      s.Installs registration handler a ∨
        (¬s.Decides registration a ∧ s.handlers.get? registration = some handler) := by
  cases change_of_step hs with
  | begun demand =>
    have hinstalls : ¬s.Installs registration handler (.begin demand) := by simp [Installs]
    have hdecides : s.Decides registration (.begin demand) ↔ demand = .unprovide registration := by
      simp [Decides, Installs]
    rw [handlers_begin, hdecides, iff_false_intro hinstalls, false_or]
    split
    · next hd => simp [hd]
    · next hd => simp [hd]
  | @heard text f _ _ hf _ hdispatch =>
    have hdecides : s.Decides registration (.read (.line text)) ↔
        ∃ other, s.Registers f registration other := by
      simp [Decides, installs_read_iff h k hf]
    rw [hdispatch, handlers_dispatch, installs_read_iff h k hf, hdecides, not_exists]
  | ignored _ hf => exact handlers_of_quiet (not_decides hf (by simp)) rfl
  | @stopped event _ hevent =>
    refine handlers_of_quiet (not_decides ?_ (by simp)) rfl
    cases event with
    | line text => exact absurd rfl (hevent text)
    | damaged | ended => rfl
  | failed | refused =>
    exact handlers_of_quiet (not_decides rfl (by simp)) (handlers_forsake s _)
  | _ => exact handlers_of_quiet (not_decides rfl (by simp)) rfl

/-! ## All that has happened -/

/-- A registration has the handler that the latest action about it has installed. -/
theorem handlers_of_past (h : Past l s) (registration : UInt64) (handler : HandlerId) :
    s.handlers.get? registration = some handler ↔ Stands l registration handler := by
  induction h with
  | started =>
    rw [Stands, iff_false_intro Since.not_nil]
    simp
  | step h hs ih =>
    rw [Stands, Since.cons_iff, ← Stands, ← ih]
    exact handlers_of_step (sound_of_past h) (heeded_of_past h) hs registration handler

/-- A registration that has been withdrawn has no handler until one is installed again. -/
lemma not_stands_of_withdrawn {later earlier : List (Session × SessionAction)} {t : Session}
    (hl : l = later ++ (t, .begin (.unprovide registration)) :: earlier)
    (hlater : ∀ p ∈ later, ¬p.1.Installs registration handler p.2) :
    ¬Stands l registration handler := by
  subst hl
  induction later with
  | nil =>
    rw [List.nil_append, Stands, Since.cons_iff]
    rintro (hinstalls | ⟨hnot, -⟩)
    · exact absurd hinstalls (by simp [Installs])
    · exact hnot (.inr rfl)
  | cons p later ih =>
    rw [List.forall_mem_cons] at hlater
    rw [List.cons_append, Stands, Since.cons_iff]
    rintro (hinstalls | ⟨-, hstands⟩)
    · exact hlater.1 hinstalls
    · exact ih hlater.2 hstands

/-! ## Invocations -/

/-- An invocation that is read goes to the handler of its registration. -/
lemma given_of_read {text : List Char} {request registration : UInt64} {procedure : Option String}
    {args : Args} {kwargs : KwArgs}
    (hf : frameOf? text = some (.invocation request registration procedure args kwargs))
    (hs : s.step (.read (.line text)) = some s') :
    s'.given = s.given ++ ((s.handlers.get? registration).map fun handler =>
      { request, registration, handler, invocation := ⟨procedure, args, kwargs⟩ }).toList := by
  cases change_of_step hs with
  | ignored _ hnone => exact absurd (hf.symm.trans hnone) (by simp)
  | stopped _ hevent => exact absurd rfl (hevent text)
  | heard _ hf' _ hdispatch =>
    obtain rfl := Option.some.inj (hf.symm.trans hf')
    have hinvoke : s' = s.invoke request registration ⟨procedure, args, kwargs⟩ := hdispatch
    rw [hinvoke]
    cases hh : s.handlers.get? registration with
    | some handler => simp [invoke, hh]
    | none =>
      have hsame : (s.invoke request registration ⟨procedure, args, kwargs⟩).given = s.given := by
        rw [invoke, hh]
        dsimp only
        split <;> rfl
      simp [hsame]

/-- An invocation keeps the handler that it has been given to. -/
lemma origin_of_onward {i : Nat} {g g' : Given} (h : g.Onward a i g') :
    g'.origin = g.origin ∧ g'.registration = g.registration ∧ g'.handler = g.handler := by
  cases h <;> exact ⟨rfl, rfl, rfl⟩

/-- Every invocation was read while its handler stood. -/
theorem origin_of_past (h : Past l s) {i : Nat} {g : Given} (hg : s.given[i]? = some g) :
    ∃ later t text earlier, l = later ++ (t, .read (.line text)) :: earlier ∧
      frameOf? text = some g.origin ∧ Stands earlier g.registration g.handler := by
  induction h generalizing g with
  | started => exact absurd hg (by simp)
  | @step l s s' a h hs ih =>
    cases hold : s.given[i]? with
    | none =>
      obtain ⟨-, text, request, registration, procedure, args, kwargs, handler, rfl, hf, hh, rfl⟩ :=
        given_new hold hg hs
      exact ⟨[], s, text, l, rfl, hf, (handlers_of_past h registration handler).1 hh⟩
    | some g₀ =>
      obtain ⟨g', hg', honward⟩ := onward_given hold hs
      obtain rfl := Option.some.inj (hg.symm.trans hg')
      obtain ⟨horigin, hregistration, hhandler⟩ := origin_of_onward honward
      obtain ⟨later, t, text, earlier, rfl, hf, hstands⟩ := ih hold
      exact ⟨(s, a) :: later, t, text, earlier, rfl, by rw [horigin, hf], by
        rw [hregistration, hhandler]; exact hstands⟩

/-! ## The whole -/

/-- What holds of the handlers and of the invocations they are given, after all that has
happened. -/
structure Handled (s : Session) (l : List (Session × SessionAction)) : Prop where
  /-- A registration has the handler that the latest action about it has installed, if it has
  installed one. -/
  table : ∀ registration handler, s.handlers.get? registration = some handler ↔
    Stands l registration handler
  /-- As long as its reader is at work, the session reads whatever line comes. -/
  reads : s.reader = .working → ∀ text, (s.step (.read (.line text))).isSome = true
  /-- The next invocation that is read goes to that handler. -/
  reached : ∀ text request registration procedure args kwargs handler s',
    frameOf? text = some (.invocation request registration procedure args kwargs) →
    s.step (.read (.line text)) = some s' → Stands l registration handler →
    s'.given = s.given ++
      [{ request, registration, handler, invocation := ⟨procedure, args, kwargs⟩ }]
  /-- If there is none, no handler is given it. -/
  unreached : ∀ text request registration procedure args kwargs s',
    frameOf? text = some (.invocation request registration procedure args kwargs) →
    s.step (.read (.line text)) = some s' → (∀ handler, ¬Stands l registration handler) →
    s'.given = s.given
  /-- A registration that has been withdrawn has none until one is installed again. -/
  withdrawn : ∀ later t earlier registration,
    l = later ++ (t, .begin (.unprovide registration)) :: earlier →
    (∀ p ∈ later, ∀ handler, ¬p.1.Installs registration handler p.2) →
    ∀ handler, ¬Stands l registration handler
  /-- Every invocation that a handler has been given was read while the handler stood. -/
  given : ∀ g ∈ s.given, ∃ later t text earlier,
    l = later ++ (t, .read (.line text)) :: earlier ∧ frameOf? text = some g.origin ∧
      Stands earlier g.registration g.handler

/-- However requests and frames follow each other, an invocation that is read goes to the handler
that was installed for its registration last, unless the registration has been withdrawn since. -/
theorem handled_of_past (h : Past l s) : s.Handled l := by
  have htable := handlers_of_past h
  refine
    { table := htable
      reads := fun hreader text => by simp [step, read, hreader]
      reached := fun text request registration procedure args kwargs handler s' hf hs hstands => ?_
      unreached := fun text request registration procedure args kwargs s' hf hs hnone => ?_
      withdrawn := fun later t earlier registration hl hlater handler =>
        not_stands_of_withdrawn hl fun p hp => hlater p hp handler
      given := fun g hg => ?_ }
  · rw [given_of_read hf hs, (htable registration handler).2 hstands]
    rfl
  · have hh : s.handlers.get? registration = none := by
      by_contra hsome
      obtain ⟨handler, hh⟩ := Option.ne_none_iff_exists'.1 hsome
      exact hnone handler ((htable registration handler).1 hh)
    rw [given_of_read hf hs, hh]
    exact List.append_nil _
  · obtain ⟨i, hi⟩ := List.getElem?_of_mem hg
    exact origin_of_past h hi

/-- A registration that is granted, withdrawn and granted again under the same number. Invocations
are read as soon as it has been granted, before the request has taken its reply, and as soon as it
is to be withdrawn. -/
def relays : List SessionAction :=
  [.begin (.provide "a" .exact 0),
    .read (.line (Frame.registered 1 9).text.toList),
    .read (.line (Frame.invocation 5 9 none [] []).text.toList),
    .begin (.unprovide 9),
    .read (.line (Frame.invocation 6 9 none [] []).text.toList),
    .begin (.provide "c" .exact 1),
    .read (.line (Frame.registered 3 9).text.toList)]

/-- The session after that. -/
def relayed : Session := run {} relays

/-- The first handler has been given the invocation that was read while it stood, and not the one
after it; the next one goes to the second handler. -/
theorem handled_of_relays : ∃ l, Past l relayed ∧ relayed.Handled l ∧
    relayed.given.map (fun g => (g.request, g.handler)) = [(5, 0)] ∧
    Stands l 9 1 ∧ ¬Stands l 9 0 ∧
    ∃ s', relayed.step (.read (.line (Frame.invocation 8 9 none [] []).text.toList)) = some s' ∧
      s'.given = relayed.given ++
        [{ request := 8, registration := 9, handler := 1, invocation := ⟨none, [], []⟩ }] := by
  have hpast : Past (trail {} relays) relayed := past_trail relays
  have hhandled := handled_of_past hpast
  have h : relayed.given.map (fun g => (g.request, g.handler)) = [(5, 0)] ∧
      relayed.handlers.get? 9 = some 1 ∧
      frameOf? (Frame.invocation 8 9 none [] []).text.toList = some (.invocation 8 9 none [] []) ∧
      relayed.reader = .working := by
    decide +kernel
  obtain ⟨hgiven, hhandler, hframe, hreader⟩ := h
  obtain ⟨s', hs'⟩ := Option.isSome_iff_exists.1
    (hhandled.reads hreader (Frame.invocation 8 9 none [] []).text.toList)
  have hstands := (hhandled.table 9 1).1 hhandler
  refine ⟨_, hpast, hhandled, hgiven, hstands, fun hold => ?_, s', hs',
    hhandled.reached _ _ _ _ _ _ _ _ hframe hs' hstands⟩
  exact absurd (hhandler.symm.trans ((hhandled.table 9 0).2 hold)) (by decide)

end Session
end Switchboard
