import Mathlib.Data.List.Basic
import Mathlib.Data.List.TakeWhile
import Switchboard.Cli.Options
import Switchboard.Proofs.Json.Strings
import Switchboard.Proofs.Text.Digits
import Switchboard.Toml.Value

/-!
# What arguments and environment say

A command line that is accepted gives a setting the value behind its name and an equals sign, or the
argument behind its name; what it does not give is taken from the environment.

* `Setting.said?` is the value that a command line gives, `Setting.given?` the value from either
  side, and `Setting.meaning?` what a value means.
* `said?_cons` says what the first argument adds, as the reader classifies it.
* `held_of_parse` and `held_of_complete` go through the arguments and through the environment;
  `held_of_read` puts them together.
-/

namespace Switchboard.Cli

open Json (of_bind)

/-! ## Settings as they are given -/

namespace Setting

/-- The value that arguments give to a setting: what stands behind its name and an equals sign, or
the argument that follows its name. -/
def said? (s : Setting) : List String → Option String
  | [] => none
  | argument :: rest =>
    if argument = "--" ++ s.name then rest.head?
    else
      match argument.toList.dropPrefix? ("--" ++ s.name ++ "=").toList with
      | some value => some (String.ofList value)
      | none => said? s rest

/-- The value that is given to a setting: by arguments, else by the environment. -/
def given? (s : Setting) (arguments : List String) (env : String → Option String) :
    Option String :=
  (s.said? arguments).or (env s.variableName)

/-- What a value means, if it is of use. -/
def meaning? (s : Setting) (value : String) : Option Toml :=
  match s with
  | config => if value = "" then none else some (.str value)
  | domain | realm | router => some (.str value)
  | advertisePort => (Options.port? value).map fun port => .int port.toNat

/-- No setting has an equals sign in its name. -/
lemma equals_notMem_name (s : Setting) : '=' ∉ s.name.toList := by
  cases s <;> decide

/-- No setting has an empty name. -/
lemma exists_name_cons (s : Setting) : ∃ c rest, s.name.toList = c :: rest := by
  cases s <;> exact ⟨_, _, rfl⟩

lemma find?_name_eq_some_iff {name : String} {s : Setting} :
    all.find? (·.name == name) = some s ↔ name = s.name := by
  constructor
  · intro h
    have hname := List.find?_some h
    exact (beq_iff_eq.1 hname).symm
  · rintro rfl
    cases s <;> decide

lemma name_inj {s t : Setting} (h : s.name = t.name) : s = t :=
  Option.some.inj ((find?_name_eq_some_iff.2 rfl).symm.trans (find?_name_eq_some_iff.2 h))

end Setting

namespace Options

/-- What options hold for a setting. -/
def entry? (o : Options) : Setting → Option Toml
  | .config => o.config.map .str
  | .domain => o.domain.map .str
  | .realm => o.realm.map .str
  | .router => o.router.map .str
  | .advertisePort => o.advertisePort.map fun port => .int port.toNat

/-! ## Arguments -/

/-- A long option is two dashes and a name, with or without an equals sign and a value. -/
lemma of_classify_long {argument name : String} {value : Option String}
    (h : classify argument = .long name value) :
    argument.toList
      = '-' :: '-' :: (name.toList ++ value.elim [] fun value => '=' :: value.toList) := by
  unfold classify at h
  split at h
  · exact absurd h (by simp)
  · next rest hne htext =>
    have hsplit := List.takeWhile_append_dropWhile (p := (· != '=')) (l := rest)
    dsimp only at h
    split at h
    · next hdrop =>
      obtain ⟨rfl, rfl⟩ := Argument.long.inj h
      rw [hdrop] at hsplit
      rw [htext, String.toList_ofList, Option.elim_none, hsplit]
    · next c value hdrop =>
      obtain ⟨rfl, rfl⟩ := Argument.long.inj h
      have hc : c = '=' := by
        have hhead := List.head?_dropWhile_not (· != '=') rest
        rw [hdrop] at hhead
        simpa using hhead
      rw [hdrop, hc] at hsplit
      rw [htext, Option.elim_some, String.toList_ofList, String.toList_ofList, hsplit]
  · exact absurd h (by simp)
  · exact absurd h (by simp)

/-- The name of a setting ends at the equals sign. -/
lemma classify_of_name {argument : String} {s : Setting} {tail : List Char}
    (htail : ∀ c ∈ tail.head?, c = '=')
    (h : argument.toList = '-' :: '-' :: (s.name.toList ++ tail)) :
    classify argument = .long s.name (tail.head?.map fun _ => String.ofList tail.tail) := by
  have hrun : ∀ c ∈ s.name.toList, (c != '=') = true := fun c hc => by
    refine bne_iff_ne.2 fun heq => s.equals_notMem_name ?_
    exact heq ▸ hc
  have hrest : ∀ c ∈ tail.head?, (c != '=') = false := fun c hc => by
    rw [htail c hc]
    rfl
  have htake := Digits.takeWhile_append hrun hrest
  have hdrop := Digits.dropWhile_append hrun hrest
  obtain ⟨c, rest, hname⟩ := s.exists_name_cons
  have hcons : s.name.toList ++ tail = c :: (rest ++ tail) := by rw [hname, List.cons_append]
  rw [hcons] at h htake hdrop
  unfold classify
  simp only [h, htake, hdrop, String.ofList_toList]
  cases tail <;> rfl

lemma toList_name (s : Setting) : ("--" ++ s.name).toList = '-' :: '-' :: s.name.toList := by
  rw [String.toList_append]
  rfl

/-- The name of a setting alone. -/
lemma eq_name_iff {argument : String} {s : Setting} :
    argument = "--" ++ s.name ↔ classify argument = .long s.name none := by
  constructor
  · intro h
    have htext : argument.toList = '-' :: '-' :: (s.name.toList ++ []) := by
      rw [h, toList_name, List.append_nil]
    exact classify_of_name (by simp) htext
  · intro h
    have htext := of_classify_long h
    rw [Option.elim_none, List.append_nil] at htext
    exact String.toList_inj.1 (htext.trans (toList_name s).symm)

/-- The name of a setting with an equals sign and a value. -/
lemma dropPrefix?_eq_some_iff {argument : String} {s : Setting} {value : List Char} :
    argument.toList.dropPrefix? ("--" ++ s.name ++ "=").toList = some value ↔
      classify argument = .long s.name (some (String.ofList value)) := by
  have hfront : ("--" ++ s.name ++ "=").toList = '-' :: '-' :: s.name.toList ++ ['='] := by
    rw [String.toList_append, toList_name]
    rfl
  rw [List.dropPrefix?_eq_some_iff, hfront]
  constructor
  · rintro ⟨front, h, hbeq⟩
    have htext : argument.toList = '-' :: '-' :: (s.name.toList ++ '=' :: value) := by
      rw [h, beq_iff_eq.1 hbeq, List.append_assoc]
      rfl
    exact classify_of_name (by simp) htext
  · intro h
    have htext := of_classify_long h
    rw [Option.elim_some, String.toList_ofList] at htext
    exact ⟨_, by rw [htext]; simp, beq_self_eq_true _⟩

end Options

lemma Setting.said?_nil (s : Setting) : s.said? [] = none := rfl

/-- What the first argument says. -/
theorem Setting.said?_cons (s : Setting) (argument : String) (rest : List String) :
    s.said? (argument :: rest) = match Options.classify argument with
      | .long name value => if name = s.name then value.or rest.head? else s.said? rest
      | _ => s.said? rest := by
  rw [said?]
  split
  · next hbare =>
    simp only [Options.eq_name_iff.1 hbare, if_true, Option.none_or]
  next hbare =>
  split
  · next value hvalue =>
    simp only [Options.dropPrefix?_eq_some_iff.1 hvalue, if_true, Option.some_or]
  next hvalue =>
  split
  · next name value hlong =>
    -- the name would have been recognised
    have hname : name ≠ s.name := by
      rintro rfl
      cases value with
      | none => exact hbare (Options.eq_name_iff.2 hlong)
      | some value =>
        rw [← String.ofList_toList (s := value)] at hlong
        have hsome := Options.dropPrefix?_eq_some_iff.2 hlong
        exact absurd (hvalue.symm.trans hsome) (by simp)
    rw [if_neg hname]
  · rfl

/-! ## What options hold -/

namespace Options

variable {o o' : Options} {s : Setting} {value : String} {env : String → Option String}

/-- The meaning of the value that a setting has been given, if it has been given one. -/
def held? (o : Options) (s : Setting) : Option (Option Toml) := (o.entry? s).map some

lemma has_eq (o : Options) (s : Setting) : o.has s = (o.held? s).isSome := by
  cases s <;> simp [has, held?, entry?]

/-- An assignment gives its own setting a meaning and leaves the others. -/
lemma held_of_assign (h : o.assign s value = .ok o') (other : Setting) :
    o'.held? other = if other = s then some (s.meaning? value) else o.held? other := by
  cases s with
  | config =>
    simp only [assign] at h
    split at h
    · exact absurd h (by simp)
    · next hvalue =>
      obtain rfl := Except.ok.inj h
      cases other <;> simp [held?, entry?, Setting.meaning?, hvalue]
  | domain | realm | router =>
    obtain rfl := Except.ok.inj h
    cases other <;> simp [held?, entry?, Setting.meaning?]
  | advertisePort =>
    simp only [assign] at h
    split at h
    · next port hport =>
      obtain rfl := Except.ok.inj h
      cases other <;> simp [held?, entry?, Setting.meaning?, hport]
    · exact absurd h (by simp)

/-- A value from the command line is for a setting that has none. -/
lemma held_of_give (h : o.give s value = .ok o') (other : Setting) : o'.held? other =
    (o.held? other).or (if other = s then some (s.meaning? value) else none) := by
  unfold give at h
  split at h
  · exact absurd h (by simp)
  next hhas =>
  split at h
  · next hassign =>
    obtain rfl := Except.ok.inj h
    rw [held_of_assign hassign]
    split
    · next hother =>
      rw [has_eq, Option.not_isSome_iff_eq_none] at hhas
      rw [hother, hhas, Option.none_or]
    · rw [Option.or_none]
  · exact absurd h (by simp)

/-- Flags without a value leave all settings as they are. -/
lemma held_of_flag {argument name : String} {text : Option String}
    (h : o.flag argument name text = .ok o') (other : Setting) :
    o'.held? other = o.held? other := by
  unfold flag at h
  iterate 5
    split at h
    · exact absurd h (by simp)
  obtain rfl := Except.ok.inj h
  cases other <;> rfl

/-- A value that is said first is what counts. -/
lemma held_of_said {t : Setting} {next : Options} (hgive : o.give t value = .ok next)
    {later : Option String}
    (hrest : o'.held? s = (next.held? s).or (later.map s.meaning?)) : o'.held? s =
      (o.held? s).or ((if t.name = s.name then some value else later).map s.meaning?) := by
  rw [hrest, held_of_give hgive, Option.or_assoc]
  by_cases hs : s = t
  · rw [if_pos hs, if_pos (congrArg Setting.name hs.symm), hs]
    rfl
  · have hname : t.name ≠ s.name := fun h => hs (Setting.name_inj h).symm
    rw [if_neg hs, if_neg hname, Option.none_or]

/-- Arguments that are accepted give each setting the value that they say, unless it has one. -/
theorem held_of_parse {arguments : List String} (h : parse o arguments = .ok o') (s : Setting) :
    o'.held? s = (o.held? s).or ((s.said? arguments).map s.meaning?) := by
  fun_induction parse o arguments with
  | case1 o =>
    obtain rfl := Except.ok.inj h
    rw [Setting.said?_nil, Option.map_none, Option.or_none]
  | case4 o argument hclassify =>
    obtain rfl := Except.ok.inj h
    simp only [Setting.said?_cons, hclassify, Setting.said?_nil, Option.map_none, Option.or_none]
  | case6 o argument rest name value hclassify hname ih =>
    obtain ⟨next, hflag, hrest⟩ := of_bind h
    have hs : name ≠ s.name := fun heq =>
      absurd (hname.symm.trans (Setting.find?_name_eq_some_iff.2 heq)) (by simp)
    simp only [ih next hrest, held_of_flag hflag, Setting.said?_cons, hclassify, if_neg hs]
  | case7 o argument rest name t value hname hclassify ih =>
    obtain rfl := Setting.find?_name_eq_some_iff.1 hname
    obtain ⟨next, hgive, hrest⟩ := of_bind h
    simp only [held_of_said hgive (ih next hrest), Setting.said?_cons, hclassify, Option.some_or]
  | case9 o argument name t hname value rest hvalue hclassify ih =>
    obtain rfl := Setting.find?_name_eq_some_iff.1 hname
    obtain ⟨next, hgive, hrest⟩ := of_bind h
    simp only [held_of_said hgive (ih next hrest), Setting.said?_cons, hclassify, hvalue,
      List.head?_cons, Option.none_or]
  | case2 | case3 | case5 | case8 | case10 => exact absurd h (by simp)

/-! ## The environment -/

/-- The environment gives a meaning to a setting that has none. -/
lemma held_of_completeSetting (h : completeSetting env o s = .ok o') (other : Setting) :
    o'.held? other = (o.held? other).or
      (if other = s then (env s.variableName).map s.meaning? else none) := by
  unfold completeSetting at h
  rw [has_eq] at h
  -- the environment counts only where no option has been said
  cases hheld : o.held? s with
  | some v =>
    rw [hheld] at h
    obtain rfl := Except.ok.inj h
    split
    · next hother => rw [hother, hheld, Option.some_or]
    · rw [Option.or_none]
  | none =>
    rw [hheld] at h
    cases henv : env s.variableName with
    | none =>
      rw [henv] at h
      obtain rfl := Except.ok.inj h
      simp
    | some value =>
      rw [henv] at h
      rw [held_of_assign h]
      split
      · next hother => rw [hother, hheld, Option.none_or, Option.map_some]
      · rw [Option.or_none]

/-- The environment gives each of the settings the value of its variable, unless it has one. -/
lemma held_of_foldlM {settings : List Setting}
    (h : settings.foldlM (completeSetting env) o = .ok o') (s : Setting) :
    o'.held? s = (o.held? s).or
      (if s ∈ settings then (env s.variableName).map s.meaning? else none) := by
  induction settings generalizing o with
  | nil =>
    obtain rfl := Except.ok.inj h
    simp
  | cons t settings ih =>
    rw [List.foldlM_cons] at h
    obtain ⟨next, hnext, hrest⟩ := of_bind h
    rw [ih hrest, held_of_completeSetting hnext, Option.or_assoc]
    by_cases hs : s = t
    · subst hs
      by_cases hmem : s ∈ settings <;> simp [hmem]
    · simp [hs]

/-- Options that are accepted hold for each setting what the value means that it has been given. -/
theorem held_of_read {arguments : List String} (h : read arguments env = .ok o) (s : Setting) :
    o.held? s = (s.given? arguments env).map s.meaning? := by
  obtain ⟨next, hparse, h⟩ := of_bind h
  split at h
  · next hcomplete =>
    obtain rfl := Except.ok.inj h
    have hs : s ∈ Setting.all := by cases s <;> decide
    have hnone : ({} : Options).held? s = none := by cases s <;> rfl
    rw [held_of_foldlM hcomplete, held_of_parse hparse, if_pos hs, hnone, Option.none_or,
      Setting.given?, Option.map_or]
  · exact absurd h (by simp)

/-- A value that is given has a meaning. -/
theorem meaning_of_read {arguments : List String} (h : read arguments env = .ok o)
    (hvalue : s.given? arguments env = some value) :
    ∃ v, s.meaning? value = some v ∧ o.entry? s = some v := by
  have hheld := held_of_read h s
  rw [hvalue, Option.map_some, held?, Option.map_eq_some_iff] at hheld
  obtain ⟨v, hv, hmeaning⟩ := hheld
  exact ⟨v, hmeaning.symm, hv⟩

/-- Options hold the meaning of what is given, and nothing else. -/
theorem entry_of_read {arguments : List String} (h : read arguments env = .ok o) (s : Setting) :
    o.entry? s = (s.given? arguments env).bind s.meaning? := by
  cases hvalue : s.given? arguments env with
  | some value =>
    obtain ⟨v, hmeaning, hentry⟩ := meaning_of_read h hvalue
    rw [hentry, Option.bind_some, hmeaning]
  | none =>
    have hheld := held_of_read h s
    rw [hvalue, Option.map_none, held?, Option.map_eq_none_iff] at hheld
    rw [hheld, Option.bind_none]

/-- The path of the configuration is what is given. -/
theorem config_of_read {arguments : List String} (h : read arguments env = .ok o) :
    o.config = Setting.config.given? arguments env := by
  cases hvalue : Setting.config.given? arguments env with
  | some path =>
    obtain ⟨v, hmeaning, hentry⟩ := meaning_of_read h hvalue
    simp only [Setting.meaning?, Option.ite_none_left_eq_some, Option.some.injEq] at hmeaning
    rw [← hmeaning.2, entry?, Option.map_eq_some_iff] at hentry
    obtain ⟨_, hconfig, hpath⟩ := hentry
    rw [hconfig, Toml.str.inj hpath]
  | none =>
    have hentry := entry_of_read h .config
    rwa [hvalue, Option.bind_none, entry?, Option.map_eq_none_iff] at hentry

end Options

end Switchboard.Cli
