import Switchboard.Proofs.Session.Frames

/-!
# The answer to one invocation

The router tells its invocations apart by number, and may give a number out again when the
invocation that had it is answered. What a session says under the number of an invocation is then
the one answer to it, and what follows belongs to later invocations.

* `Session.told` are the frames that go by a number.
* `Session.Ledger` says what has become of them since an invocation came in. `Ledger.step` keeps it.
-/

namespace Switchboard

/-- The number of the invocation that a frame makes. -/
def Frame.invokes? : Frame → Option UInt64
  | .invocation request .. => some request
  | _ => none

/-- The answer to an invocation, once it has been sent on its way. -/
def Given.own (g : Given) : List Frame := if g.told then g.answer?.toList else []

namespace Session

variable {s s' : Session} {a : SessionAction}

/-- The frames that answer invocations of a number. -/
def told (s : Session) (r : UInt64) : List Frame := s.queued.filter fun f => f.tells? = some r

/-- A frame that an action adds and that answers an invocation is the answer of a handler, or that
there is none. -/
lemma tells_of_pushes {f : Frame} {r : UInt64} (hf : f ∈ s.pushes a) (hr : f.tells? = some r) :
    (∃ i g, a = .answer i ∧ s.given[i]? = some g ∧ g.request = r) ∨
      ∃ text frame, a = .read (.line text) ∧ frameOf? text = some frame ∧
        frame.invokes? = some r := by
  cases a with
  | enqueue n =>
    simp only [pushes] at hf
    split at hf
    · split at hf
      · exact absurd hf (by simp)
      · rw [List.mem_singleton.1 hf, Demand.tells?_frame] at hr
        exact absurd hr (by simp)
    · exact absurd hf (by simp)
  | read event =>
    cases event with
    | line text =>
      simp only [pushes] at hf
      split at hf
      · next request registration procedure args kwargs hframe =>
        split at hf
        · rw [List.mem_singleton.1 hf] at hr
          exact .inr ⟨text, _, rfl, hframe, hr⟩
        · exact absurd hf (by simp)
      · exact absurd hf (by simp)
    | _ => exact absurd hf (by simp [pushes])
  | answer i =>
    simp only [pushes] at hf
    split at hf
    · exact absurd hf (by simp)
    · rw [Option.mem_toList, Option.bind_eq_some_iff] at hf
      obtain ⟨g, hg, hanswer⟩ := hf
      rw [(Given.answer?_tells hanswer).1, Option.some.injEq] at hr
      exact .inl ⟨i, g, rfl, hg, hr⟩
  | _ => exact absurd hf (by simp [pushes])

/-- What a session has said under the number `r` since the invocation with number `i` came in: first
its own answer, and then what later invocations are answered. There is nothing of those before it is
answered itself, nor when there are none; the latter is what `alone` stands for. -/
structure Ledger (s : Session) (old : List Frame) (i : Nat) (r : UInt64) (alone : Prop)
    (g : Given) : Prop where
  given : s.given[i]? = some g
  request : g.request = r
  /-- An answer is sent on its way when there is one. -/
  finished : g.told = true → g.slot.isWaiting = false
  frames : ∃ later, (s.told r).Sublist (old ++ (g.own ++ later)) ∧
    (s.writer = .working → s.told r = old ++ (g.own ++ later)) ∧
    (g.told = false ∨ alone → later = [])
  others : g.told = false ∨ alone → ∀ j g', j ≠ i → s.given[j]? = some g' → g'.request = r →
    g'.told = true

namespace Ledger

variable {old : List Frame} {i : Nat} {r : UInt64} {alone alone' : Prop} {g g' : Given}

lemma mono (l : s.Ledger old i r alone g) (halone : alone' → alone) :
    s.Ledger old i r alone' g := by
  obtain ⟨later, hsub, heq, hlater⟩ := l.frames
  refine ⟨l.given, l.request, l.finished, ⟨later, hsub, heq, ?_⟩, ?_⟩
  · exact fun hlone => hlater (hlone.imp id halone)
  · exact fun hlone => l.others (hlone.imp id halone)

/-- What is told of an invocation stays told. -/
lemma told_of_onward (ho : g.Onward a i g') (ht : g.told = true) : g'.told = true := by
  cases ho with
  | told => rfl
  | _ => exact ht

/-- An answer that has not been told now was not told before. -/
lemma untold_of_onward (ho : g.Onward a i g') (ht : g'.told = false) : g.told = false := by
  by_contra htold
  rw [told_of_onward ho (by simpa using htold)] at ht
  exact absurd ht (by simp)

/-- An invocation that has been answered and is not the only one lets others come. -/
lemma not_lone (ho : g.Onward a i g') (h : g.told = true ∧ ¬alone') :
    ¬(g'.told = false ∨ alone') := by
  rintro (ht | halone)
  · rw [told_of_onward ho h.1] at ht
    exact absurd ht (by simp)
  · exact h.2 halone

lemma request_of_onward (ho : g.Onward a i g') : g'.request = g.request := by
  cases ho <;> rfl

/-- An answer that has been sent on its way is not changed any more. -/
lemma own_of_onward (hfinished : g.told = true → g.slot.isWaiting = false)
    (ho : g.Onward a i g') (ha : a ≠ .answer i) : g'.own = g.own := by
  -- an answer that has been told is not changed by a later outcome
  cases ho with
  | kept => rfl
  | completed reply =>
    cases ht : g.told with
    | false => simp [Given.own, ht]
    | true =>
      have hslot := ReplySlot.answer_of_not_waiting (hfinished ht) reply
      simp only [Given.own, ht, Given.answer?, hslot]
  | dropped =>
    cases ht : g.told with
    | false => simp [Given.own, ht]
    | true =>
      have hslot : g.slot.abandon = g.slot := by
        have hw := hfinished ht
        cases hs : g.slot with
        | waiting =>
          rw [hs] at hw
          exact absurd hw (by decide)
        | answered | abandoned => rfl
      simp only [Given.own, ht, Given.answer?, hslot]
  | told h => exact absurd h ha

/-- An answer is told only after its call has finished. -/
lemma finished_of_onward (hfinished : g.told = true → g.slot.isWaiting = false)
    (ho : g.Onward a i g') (ht : g'.told = true) : g'.slot.isWaiting = false := by
  cases ho with
  | kept => exact hfinished ht
  | completed reply =>
    cases hs : g.slot <;> rfl
  | dropped => cases hs : g.slot <;> rfl
  | told _ _ hf =>
    change g.slot.isWaiting = false
    cases hs : g.slot with
    | waiting =>
      rw [Given.answer?, hs] at hf
      exact absurd hf (by simp)
    | answered | abandoned => rfl

variable (l : s.Ledger old i r alone g) (hs : s.step a = some s')
  (ho : g.Onward a i g') (halone : alone' → alone)
  (hread : ∀ text f, a = .read (.line text) → frameOf? text = some f → f.invokes? = some r →
    g.told = true ∧ ¬alone')
include l hs ho halone hread

/-- Once the invocation has its answer, or is the only one, other invocations of its number have
been answered. -/
theorem others_of_step (hlone : g'.told = false ∨ alone') {j : Nat} {x : Given} (hj : j ≠ i)
    (hx : s'.given[j]? = some x) (hr : x.request = r) : x.told = true := by
  have hlone' : g.told = false ∨ alone := hlone.imp (untold_of_onward ho) halone
  cases hold : s.given[j]? with
  | some x₀ =>
    obtain ⟨x', hx', hox⟩ := onward_given hold hs
    rw [hx] at hx'
    cases Option.some.inj hx'
    have hr₀ : x₀.request = r := (request_of_onward hox).symm.trans hr
    exact told_of_onward hox (l.others hlone' j x₀ hj hold hr₀)
  | none =>
    -- a new invocation of this number comes only when this one is answered
    obtain ⟨-, text, request, registration, procedure, args, kwargs, handler, ha, hf, -, hnew⟩ :=
      given_new hold hx hs
    have hinvokes : (Frame.invocation request registration procedure args kwargs).invokes?
        = some r := by
      rw [hnew] at hr
      exact congrArg some hr
    exact absurd hlone (not_lone ho (hread text _ ha hf hinvokes))

/-- What an action says under the number is not about other invocations, unless this one has been
answered and is not the only one. -/
theorem later_of_step (ha : a ≠ .answer i) (hlone : g'.told = false ∨ alone') :
    (s.pushes a).filter (fun f => f.tells? = some r) = [] := by
  rw [List.filter_eq_nil_iff]
  intro f hf hr
  rw [decide_eq_true_eq] at hr
  have hlone' : g.told = false ∨ alone := hlone.imp (untold_of_onward ho) halone
  obtain ⟨j, x, rfl, hx, hrequest⟩ | ⟨text, frame, rfl, hframe, hinvokes⟩ := tells_of_pushes hf hr
  · have hj : j ≠ i := fun he => ha (by rw [he])
    obtain ⟨y, -, hy, ht, -⟩ := answer_cases hs
    rw [hx] at hy
    rw [← Option.some.inj hy, l.others hlone' j x hj hx hrequest] at ht
    exact absurd ht (by simp)
  · exact absurd hlone (not_lone ho (hread text frame rfl hframe hinvokes))

/-- What an action says under the number follows what has been said. -/
theorem frames_of_step : ∃ later,
    (s.told r ++ (s.pushes a).filter fun f => f.tells? = some r).Sublist
      (old ++ (g'.own ++ later)) ∧
    (s.writer = .working →
      s.told r ++ (s.pushes a).filter (fun f => f.tells? = some r) = old ++ (g'.own ++ later)) ∧
    (g'.told = false ∨ alone' → later = []) := by
  obtain ⟨later, hsub, heq, hlater⟩ := l.frames
  by_cases ha : a = .answer i
  · -- nothing has been said so far, and the answer is said now unless the queue is closed
    obtain ⟨x, f, hx, ht, hf, -⟩ := answer_cases (ha ▸ hs)
    rw [l.given] at hx
    cases Option.some.inj hx
    have hown : g.own = [] := by simp [Given.own, ht]
    have hown' : g'.own = [f] := by
      cases ho with
      | kept _ _ hne => exact absurd ha hne
      | completed _ h | dropped h => exact absurd (ha.symm.trans h) (by simp)
      | told =>
        change g.answer?.toList = [f]
        rw [hf]
        rfl
    rw [hown, hlater (.inl ht), List.nil_append, List.append_nil] at hsub heq
    have hpush : (s.pushes a).filter (fun f => f.tells? = some r)
        = if s.isClosed then [] else [f] := by
      have htells : f.tells? = some r := (Given.answer?_tells hf).1.trans (congrArg some l.request)
      rw [ha, pushes_answer l.given hf]
      split
      · rfl
      · simp [htells]
    rw [hpush, hown']
    refine ⟨[], ?_, fun hw => ?_, fun _ => rfl⟩
    · rw [List.append_nil]
      refine hsub.append ?_
      split
      · exact List.nil_sublist _
      · exact List.Sublist.refl _
    · rw [heq hw, if_neg (by simp [isClosed, hw]), List.append_nil]
  · -- what is said now belongs to later invocations
    rw [own_of_onward l.finished ho ha]
    refine ⟨later ++ (s.pushes a).filter fun f => f.tells? = some r, ?_, fun hw => ?_,
      fun hlone => ?_⟩
    · rw [← List.append_assoc, ← List.append_assoc]
      refine List.Sublist.append ?_ (List.Sublist.refl _)
      rw [List.append_assoc]
      exact hsub
    · rw [heq hw]
      simp
    · rw [later_of_step l hs ho halone hread ha hlone, List.append_nil]
      exact hlater (hlone.imp (untold_of_onward ho) halone)

/-- Whatever happens in the session, the ledger stays true. -/
theorem step (hg' : s'.given[i]? = some g') : s'.Ledger old i r alone' g' := by
  obtain ⟨later, hsub, heq, hlater⟩ := frames_of_step l hs ho halone hread
  refine ⟨hg', (request_of_onward ho).trans l.request, finished_of_onward l.finished ho,
    ⟨later, ?_, ?_, hlater⟩, fun hlone j x hj hx hr =>
      others_of_step l hs ho halone hread hlone hj hx hr⟩
  · obtain ⟨hq, -⟩ | ⟨-, hq⟩ := extended_of_step hs
    · rw [told, hq, List.filter_append]
      exact hsub
    · -- with the writer frames may go, but none comes in between
      exact ((hq.filter _).trans (List.sublist_append_left _ _)).trans hsub
  · intro hw
    obtain ⟨hq, hworking⟩ | ⟨hnot, -⟩ := extended_of_step hs
    · rw [told, hq, List.filter_append]
      exact heq (hworking hw)
    · exact absurd hw hnot

end Ledger
end Session
end Switchboard
