import Switchboard.Proofs.Exchange.Transitions
import Switchboard.Proofs.Text.Digits
import Mathlib.Data.List.TakeWhile

/-!
# Whose call it is

A router brings a call because its procedure begins with a domain's pattern; the registry sends it
to the domain in front of the first slash. Both have to mean the same domain, also when one name
begins with another and when the procedure holds further slashes.

* `Target.NamedBy` is a target as its text, and `parseTarget_eq_ok_iff` says that reading finds it.
* `selects_routePattern_iff` says which texts a domain's pattern selects.
* `owner_of_selects` puts both together: a call that a domain's pattern selects goes to that domain
  or nowhere.
-/

namespace Switchboard

/-- A text names a target: the name of a domain, a slash, and a procedure. -/
structure Target.NamedBy (t : Target) (text : String) : Prop where
  text_eq : text = t.domain ++ "/" ++ t.procedure
  domain : checkDomainName t.domain = .ok ()
  procedure : t.procedure ≠ ""

/-! ## Names and patterns -/

lemma checkDomainName_eq_ok_iff {name : String} :
    checkDomainName name = .ok () ↔ name ≠ "" ∧ '/' ∉ name.toList := by
  unfold checkDomainName
  split
  · next hempty => simp [hempty]
  · next hempty =>
    split
    · next hslash => simp [hslash]
    · next hslash => simp [hempty, hslash]

lemma toList_routePattern (name : String) :
    (DomainInfo.routePattern name).toList = name.toList ++ ['/'] := by
  rw [DomainInfo.routePattern, String.toList_append]
  rfl

/-- A domain's pattern selects what begins with its name and a slash. -/
theorem selects_routePattern_iff {name text : String} :
    MatchMode.leading.selects (DomainInfo.routePattern name) text = true ↔
      ∃ rest, text = name ++ "/" ++ rest := by
  rw [MatchMode.selects, List.isPrefixOf_iff_prefix, toList_routePattern]
  constructor
  · rintro ⟨rest, hrest⟩
    refine ⟨String.ofList rest, String.toList_inj.1 ?_⟩
    rw [← hrest]
    simp
  · rintro ⟨rest, rfl⟩
    exact ⟨rest.toList, by simp⟩

/-! ## Targets -/

lemma bne_slash {text : List Char} (h : '/' ∉ text) : ∀ c ∈ text, (c != '/') = true := by
  intro c hc
  apply bne_iff_ne.2
  rintro rfl
  exact h hc

lemma head_slash {rest : List Char} : ∀ c ∈ ('/' :: rest).head?, (c != '/') = false := by
  intro c hc
  rw [List.head?_cons, Option.mem_some_iff] at hc
  rw [← hc]
  rfl

lemma parseTarget_split {domain rest : String} (h : '/' ∉ domain.toList) :
    parseTarget (some (domain ++ "/" ++ rest)) =
      if domain = "" ∨ rest = "" then .error .noDomain else .ok ⟨domain, rest⟩ := by
  have htext : (domain ++ "/" ++ rest).toList = domain.toList ++ '/' :: rest.toList := by simp
  have htake : (domain.toList ++ '/' :: rest.toList).takeWhile (· != '/') = domain.toList :=
    Digits.takeWhile_append (bne_slash h) head_slash
  have hdrop : (domain.toList ++ '/' :: rest.toList).dropWhile (· != '/') = '/' :: rest.toList :=
    Digits.dropWhile_append (bne_slash h) head_slash
  have hempty (s : String) : s.toList = [] ↔ s = "" := String.toList_eq_nil_iff
  simp only [parseTarget, htext, htake, hdrop, hempty, String.ofList_toList]

lemma parseTarget_of_no_slash {text : String} (h : '/' ∉ text.toList) :
    parseTarget (some text) = .error .noDomain := by
  have hdrop : text.toList.dropWhile (· != '/') = [] :=
    List.dropWhile_eq_nil_iff.2 (bne_slash h)
  simp only [parseTarget, hdrop]

/-- A text has no slash, or it splits at the first one. -/
theorem split_at_slash (text : String) :
    '/' ∉ text.toList ∨ ∃ domain rest, text = domain ++ "/" ++ rest ∧ '/' ∉ domain.toList := by
  by_cases hslash : '/' ∈ text.toList
  · obtain ⟨domain, rest, htext, hdomain⟩ := List.eq_append_cons_of_mem hslash
    refine .inr ⟨String.ofList domain, String.ofList rest, String.toList_inj.1 ?_, ?_⟩
    · rw [htext]
      simp
    · rwa [String.toList_ofList]
  · exact .inl hslash

/-- Reading finds a target exactly if the text names it. -/
theorem parseTarget_eq_ok_iff {text : String} {t : Target} :
    parseTarget (some text) = .ok t ↔ t.NamedBy text := by
  constructor
  · intro h
    rcases split_at_slash text with hslash | ⟨domain, rest, rfl, hslash⟩
    · rw [parseTarget_of_no_slash hslash] at h
      exact absurd h (by simp)
    · rw [parseTarget_split hslash] at h
      split at h
      · exact absurd h (by simp)
      · next hparts =>
        rw [not_or] at hparts
        obtain rfl := Except.ok.inj h
        exact ⟨rfl, checkDomainName_eq_ok_iff.2 ⟨hparts.1, hslash⟩, hparts.2⟩
  · intro h
    obtain ⟨hempty, hslash⟩ := checkDomainName_eq_ok_iff.1 h.domain
    rw [h.text_eq, parseTarget_split hslash, if_neg (not_or.2 ⟨hempty, h.procedure⟩)]

/-! ## The owner of a call -/

/-- What a domain's pattern selects is the bare pattern, or names a procedure of that domain. -/
lemma selects_iff_names {name text : String} (hname : checkDomainName name = .ok ()) :
    MatchMode.leading.selects (DomainInfo.routePattern name) text = true ↔
      text = name ++ "/" ∨ ∃ procedure, Target.NamedBy ⟨name, procedure⟩ text := by
  rw [selects_routePattern_iff]
  constructor
  · rintro ⟨rest, rfl⟩
    by_cases hrest : rest = ""
    · rw [hrest, String.append_empty]
      exact .inl rfl
    · exact .inr ⟨rest, rfl, hname, hrest⟩
  · rintro (rfl | ⟨procedure, h⟩)
    · exact ⟨"", String.append_empty.symm⟩
    · exact ⟨procedure, h.text_eq⟩

/-- No text is selected by the patterns of two domains. -/
lemma eq_of_selects {name name' text : String} (hname : checkDomainName name = .ok ())
    (hname' : checkDomainName name' = .ok ())
    (h : MatchMode.leading.selects (DomainInfo.routePattern name) text = true)
    (h' : MatchMode.leading.selects (DomainInfo.routePattern name') text = true) :
    name = name' := by
  obtain ⟨rest, rfl⟩ := selects_routePattern_iff.1 h
  obtain ⟨rest', htext⟩ := selects_routePattern_iff.1 h'
  -- the name is what stands in front of the first slash
  have htake (domain rest : String) (hd : checkDomainName domain = .ok ()) :
      (domain ++ "/" ++ rest).toList.takeWhile (· != '/') = domain.toList := by
    have hlist : (domain ++ "/" ++ rest).toList = domain.toList ++ '/' :: rest.toList := by simp
    rw [hlist]
    exact Digits.takeWhile_append (bne_slash (checkDomainName_eq_ok_iff.1 hd).2) head_slash
  apply String.toList_inj.1
  calc name.toList = (name ++ "/" ++ rest).toList.takeWhile (· != '/') :=
        (htake name rest hname).symm
    _ = (name' ++ "/" ++ rest').toList.takeWhile (· != '/') := by rw [htext]
    _ = name'.toList := htake name' rest' hname'

/-- The registry refuses a call that a domain's pattern selects, or forwards it to that domain. -/
lemma route_of_selects (r : Registry) (call : CallId) {i : Invocation} {name text : String}
    (hname : checkDomainName name = .ok ()) (hi : i.procedure = some text)
    (h : MatchMode.leading.selects (DomainInfo.routePattern name) text = true) :
    (∃ error, r.route call i = (r, [.refuse call error])) ∨
      ∃ link procedure, r.route? name = some link ∧ text = name ++ "/" ++ procedure ∧
        (r.route call i).2 = [.forward call link.connection procedure ⟨i.args, i.kwargs⟩] := by
  unfold Registry.route
  rw [hi]
  split
  · next error _ => exact .inl ⟨error, rfl⟩
  · next target htarget =>
    -- the domain that is looked up is the one whose pattern selects the text
    have hnamed := parseTarget_eq_ok_iff.1 htarget
    have howner : target.domain = name := by
      apply eq_of_selects hnamed.domain hname _ h
      exact selects_routePattern_iff.2 ⟨target.procedure, hnamed.text_eq⟩
    rw [howner]
    split
    · exact .inl ⟨.unknownDomain, rfl⟩
    · next link hlink =>
      split
      · exact .inl ⟨.busy, rfl⟩
      · exact .inr ⟨link, target.procedure, hlink, howner ▸ hnamed.text_eq, rfl⟩

/-- A domain's pattern selects the bare pattern and the texts that are read as a call to that
domain; whatever is read as a call to a domain has its name, a slash and a procedure; and no text is
selected by the patterns of two domains. So a call that comes because of a domain's pattern is
forwarded on the session of that domain, with what stands behind the first slash, or it is
refused. -/
theorem owner_of_selects :
    (∀ name text, checkDomainName name = .ok () →
      (MatchMode.leading.selects (DomainInfo.routePattern name) text = true ↔
        text = name ++ "/" ∨ ∃ procedure, parseTarget (some text) = .ok ⟨name, procedure⟩ ∧
          text = name ++ "/" ++ procedure)) ∧
    (∀ text name procedure, parseTarget (some text) = .ok ⟨name, procedure⟩ →
      checkDomainName name = .ok () ∧ procedure ≠ "" ∧ text = name ++ "/" ++ procedure) ∧
    (∀ name name' text, checkDomainName name = .ok () → checkDomainName name' = .ok () →
      MatchMode.leading.selects (DomainInfo.routePattern name) text = true →
      MatchMode.leading.selects (DomainInfo.routePattern name') text = true → name = name') ∧
    ∀ (r : Registry) (call : CallId) (i : Invocation) (name text : String),
      checkDomainName name = .ok () → i.procedure = some text →
      MatchMode.leading.selects (DomainInfo.routePattern name) text = true →
      (∃ error, r.route call i = (r, [.refuse call error])) ∨
        ∃ link procedure, r.route? name = some link ∧ text = name ++ "/" ++ procedure ∧
          (r.route call i).2 = [.forward call link.connection procedure ⟨i.args, i.kwargs⟩] := by
  refine ⟨?_, ?_, ?_, ?_⟩
  · intro name text hname
    rw [selects_iff_names hname]
    refine or_congr_right (exists_congr fun procedure => ?_)
    rw [parseTarget_eq_ok_iff]
    exact ⟨fun h => ⟨h, h.text_eq⟩, fun h => h.1⟩
  · intro text name procedure h
    -- what is parsed is put together again
    have hnamed := parseTarget_eq_ok_iff.1 h
    exact ⟨hnamed.domain, hnamed.procedure, hnamed.text_eq⟩
  · intro name name' text hname hname' h h'
    exact eq_of_selects hname hname' h h'
  · intro r call i name text hname hi h
    exact route_of_selects r call hname hi h

/-- The domains `a` and `a.b` are both there. -/
def neighbours : Registry :=
  ⟨((∅ : Table String Entry).insert "a" (.home 0 ⟨0, 1⟩)).insert "a.b"
    (.connected 1 (.v4 ⟨10, 0, 0, 5⟩ 9000) ⟨7, 2⟩), 3⟩

/-- A call to `a.b/c/d` comes because of the pattern of `a.b` alone, and goes to its connection. -/
theorem owner_of_longer_name :
    MatchMode.leading.selects (DomainInfo.routePattern "a.b") "a.b/c/d" = true ∧
    MatchMode.leading.selects (DomainInfo.routePattern "a") "a.b/c/d" = false ∧
    (neighbours.route 4 ⟨some "a.b/c/d", [], []⟩).2 = [.forward 4 7 "c/d" ⟨[], []⟩] := by
  obtain ⟨hselects, hreads, honly, howner⟩ := owner_of_selects
  have hread : parseTarget (some "a.b/c/d") = .ok ⟨"a.b", "c/d"⟩ := by decide +kernel
  have hshorter : checkDomainName "a" = .ok () := by decide +kernel
  obtain ⟨hname, -, htext⟩ := hreads _ _ _ hread
  have h := (hselects "a.b" "a.b/c/d" hname).2 (.inr ⟨"c/d", hread, htext⟩)
  refine ⟨h, ?_, ?_⟩
  · apply Bool.eq_false_iff.2
    intro hother
    exact absurd (honly _ _ _ hshorter hname hother h) (by decide)
  · rcases howner neighbours 4 ⟨some "a.b/c/d", [], []⟩ "a.b" _ hname rfl h with
      ⟨error, hrefused⟩ | ⟨link, procedure, hlink, hprocedure, hforwarded⟩
    · -- a permit has been taken
      have hpermits : (neighbours.route 4 ⟨some "a.b/c/d", [], []⟩).1.permits = 2 := by
        decide +kernel
      rw [hrefused] at hpermits
      exact absurd hpermits (show neighbours.permits ≠ 2 by decide)
    · have hown : neighbours.route? "a.b" = some ⟨7, 2⟩ := by decide +kernel
      rw [hforwarded, Option.some.inj (hlink.symm.trans hown),
        (String.append_right_inj _).1 (htext.symm.trans hprocedure)]

end Switchboard
