import Switchboard.Proofs.Route.Ownership

/-!
# The verdict on a call

When the registry comes to a call it judges it by its table, in a fixed order: is there a procedure,
does it name a domain and something behind it, is the domain usable, is there a permit left.

* `Registry.Judges` is the verdict case by case, and `judges_iff` says that there is exactly one.
* `route_of_verdict` says that the registry acts on it.
-/

namespace Switchboard

/-- What becomes of a call that the registry comes to. -/
inductive Verdict
  /-- Its caller is told a reason. -/
  | refused (reason : String)
  /-- A procedure is called on a connection. -/
  | forwarded (connection : ConnectionId) (procedure : String)
deriving DecidableEq, Repr

namespace Registry

/-- The verdict on a call for a procedure. -/
inductive Judges (r : Registry) : Option String → Verdict → Prop
  | noProcedure : Judges r none (.refused "no procedure specified")
  | noSlash {text : String} (h : '/' ∉ text.toList) :
    Judges r (some text) (.refused "no domain specified")
  /-- There is nothing in front of the first slash. -/
  | noDomain (rest : String) : Judges r (some ("/" ++ rest)) (.refused "no domain specified")
  /-- There is nothing behind the first slash. -/
  | noRest {domain : String} (h : '/' ∉ domain.toList) :
    Judges r (some (domain ++ "/")) (.refused "no domain specified")
  /-- The domain has no session, or one that is still being made. -/
  | unknown {text : String} {t : Target} (ht : t.NamedBy text)
    (h : ∀ x, r.table.get? t.domain = some x → x.isConnected = false) :
    Judges r (some text) (.refused "target domain is unknown")
  | busy {text : String} {t : Target} {x : Entry} (ht : t.NamedBy text)
    (hx : r.table.get? t.domain = some x) (hc : x.isConnected = true) (hp : r.permits = 0) :
    Judges r (some text) (.refused "too many forwarded calls in flight")
  | forwarded {text : String} {t : Target} {x : Entry} {link : Link} (ht : t.NamedBy text)
    (hx : r.table.get? t.domain = some x) (hl : x.link? = some link) (hp : 0 < r.permits) :
    Judges r (some text) (.forwarded link.connection t.procedure)

/-- The verdict, computed. -/
def verdict (r : Registry) (procedure : Option String) : Verdict :=
  match parseTarget procedure with
  | .error error => .refused error.message
  | .ok target =>
    match r.route? target.domain with
    | none => .refused RouteError.unknownDomain.message
    | some link =>
      if r.permits = 0 then .refused RouteError.busy.message
      else .forwarded link.connection target.procedure

variable {r : Registry}

/-- There is no route to a domain without a connected session. -/
lemma route?_eq_none_iff {domain : String} : r.route? domain = none ↔
    ∀ x, r.table.get? domain = some x → x.isConnected = false := by
  unfold route?
  cases r.table.get? domain with
  | none => simp
  | some x => simp [Entry.isConnected]

/-- The route to a domain is the link of its session. -/
lemma route?_eq_some_iff {domain : String} {link : Link} : r.route? domain = some link ↔
    ∃ x, r.table.get? domain = some x ∧ x.link? = some link :=
  Option.bind_eq_some_iff

/-- The verdict that is computed is one. -/
lemma judges_verdict (r : Registry) (procedure : Option String) :
    r.Judges procedure (r.verdict procedure) := by
  cases procedure with
  | none => exact .noProcedure
  | some text =>
    unfold verdict
    split
    · next error herror =>
      rcases split_at_slash text with hslash | ⟨domain, rest, rfl, hslash⟩
      · rw [parseTarget_of_no_slash hslash] at herror
        rw [← Except.error.inj herror]
        exact .noSlash hslash
      · -- one of the two parts is missing
        rw [parseTarget_split hslash] at herror
        split at herror
        · next hparts =>
          rw [← Except.error.inj herror]
          rcases hparts with rfl | rfl
          · rw [String.empty_append]
            exact .noDomain rest
          · rw [String.append_empty]
            exact .noRest hslash
        · exact absurd herror (by simp)
    · next target htarget =>
      have hnamed := parseTarget_eq_ok_iff.1 htarget
      split
      · next hroute => exact .unknown hnamed (route?_eq_none_iff.1 hroute)
      · next link hroute =>
        obtain ⟨x, hx, hl⟩ := route?_eq_some_iff.1 hroute
        split
        · next hp => exact .busy hnamed hx (by rw [Entry.isConnected, hl]; rfl) hp
        · next hp => exact .forwarded hnamed hx hl (Nat.pos_of_ne_zero hp)

/-- There is one verdict on a call. -/
theorem judges_iff {procedure : Option String} {v : Verdict} :
    r.Judges procedure v ↔ v = r.verdict procedure := by
  constructor
  · intro h
    cases h with
    | noProcedure => rfl
    | noSlash hslash =>
      rw [verdict, parseTarget_of_no_slash hslash]
      rfl
    | noDomain rest =>
      have hread : parseTarget (some ("" ++ "/" ++ rest)) = _ := parseTarget_split (by simp)
      rw [String.empty_append, if_pos (.inl rfl)] at hread
      rw [verdict, hread]
      rfl
    | @noRest domain hslash =>
      have hread : parseTarget (some (domain ++ "/" ++ "")) = _ := parseTarget_split hslash
      rw [String.append_empty, if_pos (.inr rfl)] at hread
      rw [verdict, hread]
      rfl
    | unknown ht hnone =>
      rw [verdict, parseTarget_eq_ok_iff.2 ht]
      simp only [route?_eq_none_iff.2 hnone]
      rfl
    | busy ht hx hc hp =>
      obtain ⟨link, hl⟩ := Option.isSome_iff_exists.1 hc
      rw [verdict, parseTarget_eq_ok_iff.2 ht]
      simp only [route?_eq_some_iff.2 ⟨_, hx, hl⟩, hp, if_true]
      rfl
    | forwarded ht hx hl hp =>
      rw [verdict, parseTarget_eq_ok_iff.2 ht]
      simp only [route?_eq_some_iff.2 ⟨_, hx, hl⟩, Nat.ne_of_gt hp, if_false]
  · -- the verdict that is computed is one of the cases
    rintro rfl
    exact r.judges_verdict procedure

/-- The registry acts on its verdict. -/
theorem route_of_verdict (r : Registry) (call : CallId) (i : Invocation) :
    (∃ error : RouteError, r.verdict i.procedure = .refused error.message ∧
      r.route call i = (r, [.refuse call error])) ∨
    ∃ connection procedure, r.verdict i.procedure = .forwarded connection procedure ∧
      r.route call i = ({ r with permits := r.permits - 1 },
        [.forward call connection procedure ⟨i.args, i.kwargs⟩]) := by
  unfold verdict route
  cases parseTarget i.procedure with
  | error error => exact .inl ⟨error, rfl, rfl⟩
  | ok target =>
    cases hroute : r.route? target.domain with
    | none =>
      simp only [hroute]
      exact .inl ⟨.unknownDomain, rfl, rfl⟩
    | some link =>
      simp only [hroute]
      cases hpermits : r.permits with
      | zero => exact .inl ⟨.busy, rfl, rfl⟩
      | succ permits => exact .inr ⟨link.connection, target.procedure, rfl, rfl⟩

end Registry
end Switchboard
