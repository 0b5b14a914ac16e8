import Switchboard.Proofs.Session.Invocations
import Switchboard.Proofs.Session.Loss

/-!
# Requests and the frames that answer them

Frames that answer requests may come in any order, more than once, for requests that have ended or
were never made, and may be of the wrong kind. A request takes the first one of its number that is
read after it has been entered, and nothing else.

* `Session.replies` are the frames of a request's number that have been read since it was entered,
  in the order in which they came.
* `replies_of_past` says that a request has the first of them, and awaits its reply while there is
  none.
* `Demand.Concluded` is how a request ends that has a frame as its reply.
* `Session.Matched` is what all this amounts to for one request, and `matched_of_past` says it of
  every request and every run; frames that no request takes change nothing.
-/

namespace Switchboard

/-- The frame that an action reads. -/
def SessionAction.frame? : SessionAction → Option Frame
  | .read (.line text) => frameOf? text
  | _ => none

namespace Demand

/-- The frame grants the request, with what it carries. -/
inductive Grants : Demand → Frame → Answer → Prop
  | result {procedure : String} {arguments : CallResult} {id : UInt64} {args : Args}
      {kwargs : KwArgs} :
    Grants (.call procedure arguments) (.result id args kwargs) (.result ⟨args, kwargs⟩)
  | registered {pattern : String} {mode : MatchMode} {handler : HandlerId}
      {id registration : UInt64} :
    Grants (.provide pattern mode handler) (.registered id registration) (.registered registration)
  | withdrawn {registration id : UInt64} :
    Grants (.unprovide registration) (.unregistered id) .withdrawn

/-- How the request ends with the frame as its reply. -/
inductive Concluded (d : Demand) (f : Frame) : RequestOutcome → Prop
  | granted {answer : Answer} (h : d.Grants f answer) : Concluded d f (.granted answer)
  | refused {id : UInt64} {message : String} (h : f = .error id message) :
    Concluded d f (.failed (.remote message))
  /-- The frame is of another kind. -/
  | unfit (hgrants : ∀ answer, ¬d.Grants f answer) (herror : ∀ id message, f ≠ .error id message) :
    Concluded d f (.failed (.protocol (.unexpectedReply d.kind f)))

/-- A reply is interpreted by the kind of its request. -/
lemma concluded_interpret (d : Demand) (f : Frame) : d.Concluded f (d.kind.interpret f) := by
  cases f with
  | error => cases d <;> exact .refused rfl
  | result =>
    cases d with
    | call => exact .granted .result
    | _ => exact .unfit (fun _ h => nomatch h) (by simp)
  | registered =>
    cases d with
    | provide => exact .granted .registered
    | _ => exact .unfit (fun _ h => nomatch h) (by simp)
  | unregistered =>
    cases d with
    | unprovide => exact .granted .withdrawn
    | _ => exact .unfit (fun _ h => nomatch h) (by simp)
  | _ => cases d <;> exact .unfit (fun _ h => nomatch h) (by simp)

end Demand

namespace Session

variable {s s' : Session} {a : SessionAction} {l : List (Session × SessionAction)} {n : Nat}
  {r : Request} {f : Frame}

/-! ## One action -/

/-- The frame with the number of the request `n` that an action reads, if that request has been
entered. -/
def hears? (s : Session) (n : Nat) (a : SessionAction) : Option Frame :=
  if n < s.count then a.frame?.filter (·.replyTo = some (requestId n)) else none

/-- What a request hears is a line with a reply to its number. -/
lemma of_hears? (h : s.hears? n a = some f) :
    ∃ text, a = .read (.line text) ∧ frameOf? text = some f ∧
      f.replyTo = some (requestId n) := by
  unfold hears? at h
  split at h
  · obtain ⟨hframe, hid⟩ := Option.filter_eq_some_iff.1 h
    unfold SessionAction.frame? at hframe
    split at hframe
    · next text => exact ⟨text, rfl, hframe, by simpa using hid⟩
    · exact absurd hframe (by simp)
  · exact absurd h (by simp)

/-- A line with a reply to its number is heard by a request. -/
lemma hears?_read {text : List Char} (hn : n < s.count) (hf : frameOf? text = some f)
    (hid : f.replyTo = some (requestId n)) : s.hears? n (.read (.line text)) = some f := by
  rw [hears?, if_pos hn, SessionAction.frame?, hf, Option.filter_some, if_pos (by simp [hid])]

/-- A request that awaits its reply takes the frame of its number. -/
lemma arrived_of_read {text : List Char} (h : s.Sound) (hr : s.requests.get? n = some r)
    (hawaited : r.reply = .awaited) (hf : frameOf? text = some f)
    (hid : f.replyTo = some (requestId n)) (hs : s.step (.read (.line text)) = some s') :
    ∃ r', s'.requests.get? n = some r' ∧ r'.reply = .arrived f := by
  obtain ⟨w, hw, hwn⟩ := h.awaited n r hr hawaited
  cases change_of_step hs with
  | ignored _ hnone => exact absurd (hf.symm.trans hnone) (by simp)
  | stopped _ hevent => exact absurd rfl (hevent text)
  | heard _ hf' _ hdispatch =>
    obtain rfl := Option.some.inj (hf.symm.trans hf')
    -- the entry leads to this very request
    have hdeliver : s.dispatch f = s.deliver (requestId n) f := by simp only [dispatch, hid]
    have hrequests : (s.deliver (requestId n) f).requests
        = s.requests.modify n fun r => { r with reply := .arrived f } := by
      simp only [deliver, hw, modifyRequest, hwn]
    refine ⟨{ r with reply := .arrived f }, ?_, rfl⟩
    rw [hdispatch, hdeliver, hrequests, Table.get?_modify, if_pos rfl, hr, Option.map_some]

/-- A frame that is no invocation and that no request awaits changes nothing. -/
lemma eq_of_read {text : List Char} (h : s.Sound) (hf : frameOf? text = some f)
    (hs : s.step (.read (.line text)) = some s') (hinvokes : f.invokes? = none)
    (hother : ∀ n r, s.requests.get? n = some r → r.reply = .awaited →
      f.replyTo ≠ some (requestId n)) : s' = s := by
  have hnot : ∀ request registration procedure args kwargs,
      f ≠ .invocation request registration procedure args kwargs := by
    intro request registration procedure args kwargs he
    rw [he] at hinvokes
    exact absurd hinvokes (by simp [Frame.invokes?])
  cases change_of_step hs with
  | ignored => rfl
  | stopped _ hevent => exact absurd rfl (hevent text)
  | heard _ hf' hd =>
    obtain rfl := Option.some.inj (hf.symm.trans hf')
    cases hd with
    | delivered hid hw =>
      obtain ⟨hwid, r, hr, hawaited⟩ := h.waiter _ _ hw
      exact absurd (hid.trans (congrArg some hwid.symm)) (hother _ r hr hawaited)
    | given he | unhandled he => exact absurd he (hnot _ _ _ _ _)
    | ignored => rfl

/-! ## All that has happened -/

/-- The frames with the number of the request `n` that have been read since it was entered, the
first one in front. -/
def replies (l : List (Session × SessionAction)) (n : Nat) : List Frame :=
  l.reverse.filterMap fun p => p.1.hears? n p.2

lemma replies_cons (s : Session) (a : SessionAction) (l : List (Session × SessionAction))
    (n : Nat) :
    replies ((s, a) :: l) n = replies l n ++ (s.hears? n a).toList := by
  rw [replies, List.reverse_cons, List.filterMap_append]
  cases h : s.hears? n a <;> simp [replies, h]

lemma regular_of_past (h : Past l s) : s.Regular := by
  induction h with
  | started => exact regular_empty
  | step _ hs ih => exact ih.step hs

/-- There have never been more requests than now. -/
lemma count_le_of_past (h : Past l s) : ∀ p ∈ l, p.1.count ≤ s.count := by
  induction h with
  | started => exact fun p hp => absurd hp (by simp)
  | @step l s s' a h hs ih =>
    have hle : s.count ≤ s'.count := by
      obtain he | ⟨demand, -, rfl⟩ := count_of_step hs
      · exact Nat.le_of_eq he.symm
      · rw [count_begin]
        exact Nat.le_succ _
    intro p hp
    rcases List.mem_cons.1 hp with rfl | hp
    · exact hle
    · exact Nat.le_trans (ih p hp) hle

/-- For a request that has not been entered nothing has been read. -/
lemma replies_of_count_le (h : Past l s) (hn : s.count ≤ n) : replies l n = [] := by
  rw [replies, List.filterMap_eq_nil_iff]
  intro p hp
  have hle := count_le_of_past h p (List.mem_reverse.1 hp)
  rw [hears?, if_neg (by omega)]

/-- A request that is new has been entered by the last action. -/
lemma begun_of_new (h : s.Sound) (o : s.Orderly) (hs : s.step a = some s')
    (hnone : s.requests.get? n = none) (hr : s'.requests.get? n = some r) :
    n = s.count ∧ r = { demand := r.demand } ∧ a = .begin r.demand := by
  have hle : s.count ≤ n := by
    by_contra hlt
    obtain ⟨r', hr'⟩ := o.present n (by omega)
    exact absurd (hnone.symm.trans hr') (by simp)
  have hlt := ((h.step hs).proper n r hr).lt
  obtain he | ⟨demand, rfl, rfl⟩ := count_of_step hs
  · omega
  · rw [count_begin] at hlt
    obtain rfl : n = s.count := by omega
    rw [get?_begin_count, Option.some.injEq] at hr
    rw [← hr]
    exact ⟨rfl, rfl, rfl⟩

/-- A request has the first frame of its number that was read since it was entered, and awaits its
reply only while there is none. -/
theorem replies_of_past (h : Past l s) (hr : s.requests.get? n = some r) :
    (r.reply = .awaited → replies l n = []) ∧
      ∀ f, r.reply = .arrived f → (replies l n).head? = some f := by
  induction h generalizing r with
  | started => exact absurd hr (by simp)
  | @step l s s' a h hs ih =>
    have hregular := regular_of_past h
    rw [replies_cons]
    cases hold : s.requests.get? n with
    | none =>
      -- the request has just been entered
      obtain ⟨rfl, hnew, rfl⟩ := begun_of_new hregular.sound hregular.orderly hs hold hr
      have hhears : s.hears? s.count (.begin r.demand) = none := by rw [hears?, if_neg (by omega)]
      rw [replies_of_count_le h (Nat.le_refl _), hhears]
      exact ⟨fun _ => rfl, fun f hf => absurd (hnew ▸ hf) (by simp)⟩
    | some r₀ =>
      obtain ⟨hawaited, harrived⟩ := ih hold
      obtain ⟨r', hr', honward⟩ := onward_of_step hregular.sound hold hs
      obtain rfl := Option.some.inj (hr.symm.trans hr')
      refine ⟨fun hwait => ?_, fun f hf => ?_⟩
      · -- it has awaited its reply before, so that no frame can have come for it
        have hwait₀ : r₀.reply = .awaited := by
          obtain hkept | ⟨hwait₀, -⟩ := honward.reply
          · rw [← hkept, hwait]
          · exact hwait₀
        have hhears : s.hears? n a = none := by
          by_contra hsome
          obtain ⟨f, hf⟩ := Option.ne_none_iff_exists'.1 hsome
          obtain ⟨text, rfl, htext, hid⟩ := of_hears? hf
          obtain ⟨r'', hr'', hreply⟩ := arrived_of_read hregular.sound hold hwait₀ htext hid hs
          obtain rfl := Option.some.inj (hr.symm.trans hr'')
          exact absurd (hwait.symm.trans hreply) (by simp)
        rw [hawaited hwait₀, hhears]
        rfl
      · obtain hkept | ⟨hwait₀, hnever | ⟨text, f', rfl, htext, hreply⟩⟩ := honward.reply
        · rw [List.head?_append, harrived f (hkept ▸ hf)]
          rfl
        · exact absurd (hnever.symm.trans hf) (by simp)
        · -- the frame that it takes is the first one
          obtain rfl : f' = f := ReplyFrame.arrived.inj (hreply.symm.trans hf)
          have hlt := (hregular.sound.proper n r₀ hold).lt
          have hid := ((hregular.step hs).sound.proper n r hr).arrived f' hf
          rw [hawaited hwait₀, hears?_read hlt htext hid]
          rfl

/-- A request was entered by an action of the run, for what it asks. -/
theorem begun_of_past (h : Past l s) (hr : s.requests.get? n = some r) :
    ∃ p ∈ l, p.1.count = n ∧ p.2 = .begin r.demand := by
  induction h generalizing r with
  | started => exact absurd hr (by simp)
  | @step l s s' a h hs ih =>
    have hregular := regular_of_past h
    cases hold : s.requests.get? n with
    | none =>
      obtain ⟨hn, -, ha⟩ := begun_of_new hregular.sound hregular.orderly hs hold hr
      exact ⟨(s, a), List.mem_cons_self, hn.symm, ha⟩
    | some r₀ =>
      obtain ⟨r', hr', honward⟩ := onward_of_step hregular.sound hold hs
      obtain rfl := Option.some.inj (hr.symm.trans hr')
      obtain ⟨p, hp, hcount, hbegin⟩ := ih hold
      exact ⟨p, List.mem_cons_of_mem _ hp, hcount, by rw [hbegin, honward.demand]⟩

/-- A request has no frames but its own, as long as there are enough numbers. -/
lemma eq_of_asked (o : s.Orderly) (hcount : s.count ≤ 2 ^ 64) (hr : s.requests.get? n = some r)
    (hf : f ∈ s.queued) (hid : f.asks? = some (requestId n)) :
    f = r.demand.frame (requestId n) := by
  have hmem : f ∈ s.asked n := List.mem_filter.2 ⟨hf, by simp [hid]⟩
  have hsent := o.sent hcount n r hr
  unfold Request.Sent at hsent
  cases hstage : r.stage with
  | entered | sending =>
    rw [hstage] at hsent
    exact absurd (hsent ▸ hmem) (by simp)
  | waiting | done =>
    rw [hstage] at hsent
    exact List.mem_singleton.1 (hsent.1.subset hmem)

/-- An outcome is never changed. -/
theorem done_of_reaches (h : s.Sound) {o : RequestOutcome} (hr : s.requests.get? n = some r)
    (hdone : r.stage = .done o) (hs : Reaches s s') :
    s'.Sound ∧ ∃ r', s'.requests.get? n = some r' ∧ r'.stage = .done o := by
  induction hs with
  | refl => exact ⟨h, r, hr, hdone⟩
  | step a _ hs ih =>
    obtain ⟨hsound, r', hr', hdone'⟩ := ih
    obtain ⟨r'', hr'', honward⟩ := onward_of_step hsound hr' hs
    have hnext := honward.stage
    rw [hdone'] at hnext
    exact ⟨hsound.step hs, r'', hr'', hnext.done⟩

/-! ## The match -/

/-- What holds of the request with number `n` after all that has happened. -/
structure Matched (s : Session) (l : List (Session × SessionAction)) (n : Nat) (r : Request) :
    Prop where
  /-- It was entered for what it asks. -/
  begun : ∃ p ∈ l, p.1.count = n ∧ p.2 = .begin r.demand
  /-- A frame that asks the router for something under its number is its own. -/
  asked : ∀ f ∈ s.queued, f.asks? = some (requestId n) → f = r.demand.frame (requestId n)
  /-- A reply finds it by its number as long as it awaits one. -/
  entry : (∃ w, s.pending.get? (requestId n) = some w ∧ w.request = n) ↔ r.reply = .awaited
  /-- As long as it awaits its reply none has come. -/
  awaited : r.reply = .awaited → replies l n = []
  /-- The next frame of its number is then its reply. -/
  delivery : r.reply = .awaited → ∀ text f s', frameOf? text = some f →
    f.replyTo = some (requestId n) → s.step (.read (.line text)) = some s' →
    ∃ r', s'.requests.get? n = some r' ∧ r'.reply = .arrived f
  /-- Its reply is the first one that came. -/
  arrived : ∀ f, r.reply = .arrived f → (replies l n).head? = some f
  /-- It has ended as its reply says, or because the session is lost. -/
  done : ∀ o, r.stage = .done o →
    (∃ f, (replies l n).head? = some f ∧ r.demand.Concluded f o) ∨
      (o = .failed .disconnected ∧ s.lost = true)
  /-- It does not end again. -/
  final : ∀ o, r.stage = .done o → ∀ s', Reaches s s' →
    ∃ r', s'.requests.get? n = some r' ∧ r'.stage = .done o

/-- Every request of a history is matched. -/
lemma matched_of_get? (h : Past l s) (hcount : s.count ≤ 2 ^ 64)
    (hr : s.requests.get? n = some r) : s.Matched l n r := by
  have hregular := regular_of_past h
  have hsound := hregular.sound
  have hproper := hsound.proper n r hr
  obtain ⟨hawaited, harrived⟩ := replies_of_past h hr
  refine ⟨begun_of_past h hr, ?_, ⟨?_, hsound.awaited n r hr⟩, hawaited, ?_, harrived, ?_, ?_⟩
  · intro f hf hid
    exact eq_of_asked hregular.orderly hcount hr hf hid
  · rintro ⟨w, hw, hwn⟩
    exact hsound.reply_of_pending hw hwn hr
  · intro hwait text f s' hf hid hs
    exact arrived_of_read hsound hr hwait hf hid hs
  · intro o hdone
    obtain ⟨f, hreply, rfl⟩ | ⟨ho, hlost⟩ := hproper.done o hdone
    · exact .inl ⟨f, harrived f hreply, r.demand.concluded_interpret f⟩
    · -- there are enough numbers, so that none has been given out again
      exact .inr ⟨ho, hlost.resolve_right (by omega)⟩
  · intro o hdone s' hs
    exact (done_of_reaches hsound hr hdone hs).2

/-- As long as there are fewer requests than numbers, each request has a number of its own and takes
the first frame of that number which is read after it has been entered. A frame that is no
invocation and that no request takes changes nothing. -/
theorem matched_of_past (h : Past l s) (hcount : s.count < 2 ^ 64) :
    (∀ m < s.count, ∀ n < s.count, requestId m = requestId n → m = n) ∧
    (∀ n < s.count, ∃ r, s.requests.get? n = some r ∧ s.Matched l n r) ∧
    ∀ text f s', frameOf? text = some f → s.step (.read (.line text)) = some s' →
      f.invokes? = none → (∀ n r, s.requests.get? n = some r → r.reply = .awaited →
        f.replyTo ≠ some (requestId n)) → s' = s := by
  have hregular := regular_of_past h
  refine ⟨fun m hm n hn hid => ?_, fun n hn => ?_, fun text f s' hf hs hinvokes hother => ?_⟩
  · rw [requestId_eq_iff] at hid
    omega
  · obtain ⟨r, hr⟩ := hregular.orderly.present n hn
    exact ⟨r, hr, matched_of_get? h (Nat.le_of_lt hcount) hr⟩
  · exact eq_of_read hregular.sound hf hs hinvokes hother

lemma mem_values_of_get? (hr : s.requests.get? n = some r) : r ∈ s.requests.values :=
  List.mem_map.2 ⟨(n, r), Table.mem_entries_iff.2 hr, rfl⟩

/-- Four requests and their replies: they come in another order, one comes twice, one is of the
wrong kind, one is for a request that was never made, and one is an error. -/
def disorder : List SessionAction :=
  [.begin (.call "a" {}), .begin (.provide "b" .exact 0), .begin (.unprovide 7),
    .begin (.call "c" {}), .check 0, .check 1, .check 2, .check 3, .enqueue 0, .enqueue 1,
    .enqueue 2, .enqueue 3,
    .read (.line (Frame.result 4 [.str "x"] []).text.toList),
    .read (.line (Frame.registered 1 5).text.toList),
    .read (.line (Frame.unregistered 9).text.toList),
    .read (.line (Frame.registered 2 6).text.toList),
    .read (.line (Frame.registered 2 8).text.toList),
    .read (.line (Frame.error 3 "gone").text.toList),
    .collect 3, .collect 2, .collect 1, .collect 0]

/-- The session after that. -/
def sorted : Session := run {} disorder

/-- Each of the requests has ended as the first frame of its number says; a second reply that comes
now changes nothing. -/
theorem matched_of_disorder : ∃ l, Past l sorted ∧ sorted.count = 4 ∧
    sorted.requests.values.map Request.stage =
      [.done (.failed (.protocol (.unexpectedReply .call (.registered 1 5)))),
        .done (.granted (.registered 6)), .done (.failed (.remote "gone")),
        .done (.granted (.result ⟨[.str "x"], []⟩))] ∧
    replies l 1 = [.registered 2 6, .registered 2 8] ∧
    (∀ n < 4, ∃ r, sorted.requests.get? n = some r ∧ sorted.Matched l n r) ∧
    sorted.step (.read (.line (Frame.result 1 [] []).text.toList)) = some sorted := by
  have hpast : Past (trail {} disorder) sorted := past_trail disorder
  have h : sorted.count = 4 ∧ sorted.requests.values.map Request.stage =
      [.done (.failed (.protocol (.unexpectedReply .call (.registered 1 5)))),
        .done (.granted (.registered 6)), .done (.failed (.remote "gone")),
        .done (.granted (.result ⟨[.str "x"], []⟩))] ∧
      replies (trail {} disorder) 1 = [.registered 2 6, .registered 2 8] ∧
      (∀ r ∈ sorted.requests.values, r.reply ≠ .awaited) ∧
      frameOf? (Frame.result 1 [] []).text.toList = some (.result 1 [] []) ∧
      (sorted.step (.read (.line (Frame.result 1 [] []).text.toList))).isSome := by
    decide +kernel
  obtain ⟨hcount, hends, hreplies, hsettled, hframe, hstep⟩ := h
  obtain ⟨-, hmatched, hother⟩ := matched_of_past hpast (by rw [hcount]; omega)
  obtain ⟨t, ht⟩ := Option.isSome_iff_exists.1 hstep
  have hsame : t = sorted :=
    hother _ _ t hframe ht rfl fun n r hr hawaited =>
      absurd hawaited (hsettled r (mem_values_of_get? hr))
  rw [hsame] at ht
  rw [hcount] at hmatched
  exact ⟨_, hpast, hcount, hends, hreplies, hmatched, ht⟩

end Session
end Switchboard
