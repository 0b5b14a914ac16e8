import Switchboard.Proofs.Text.Digits
import Switchboard.Net.Ip

/-!
# Which texts are addresses

The grammar of addresses, said without reading: a version 4 address is the text of one, and a
version 6 address is eight groups with colons between them or a shorter form with `::` in it.
`isSome_parse?` says that exactly these texts are read.
-/

namespace Switchboard

open Digits (isDigit_of_toDigits toDigits_of_pos)

/-! ## The grammar -/

namespace Ipv6

/-- A group of sixteen bits: one to four hexadecimal digits. -/
def IsGroup (text : List Char) : Prop :=
  text ≠ [] ∧ text.length ≤ 4 ∧ ∀ c ∈ text, Ip.isHexDigit c = true

/-- The colon in front of every group but the first. -/
def lead (first : Bool) : List Char := if first then [] else [':']

/-- Some groups in a row, of which the last two may be written as version 4: their text, their
number, and whether they are. -/
inductive Groups : (first : Bool) → List Char → (count : Nat) → (embedded : Bool) → Prop
  | nil {first : Bool} : Groups first [] 0 false
  | version4 {first : Bool} (ip : Ipv4) : Groups first (lead first ++ ip.write) 2 true
  | cons {first embedded : Bool} {group text : List Char} {count : Nat} (hgroup : IsGroup group)
      (h : Groups false text count embedded) :
      Groups first (lead first ++ (group ++ text)) (count + 1) embedded

/-- The text of an address: all eight groups, or some at the start and some at the end of fewer. -/
inductive Literal : List Char → Prop
  | full {text : List Char} {embedded : Bool} (h : Groups true text 8 embedded) : Literal text
  | shortened {head tail : List Char} {n m : Nat} {embedded : Bool}
      (hhead : Groups true head n false) (htail : Groups true tail m embedded)
      (hcount : n + m ≤ 7) : Literal (head ++ ':' :: ':' :: tail)

end Ipv6

/-- A text that is an address of either version. -/
def Ip.Literal (text : List Char) : Prop := (∃ ip : Ipv4, text = ip.write) ∨ Ipv6.Literal text

/-! ## Version 4 -/

namespace Ip

lemma readChar_eq_some {c : Char} {s rest : List Char} (h : readChar c s = some rest) :
    s = c :: rest := by
  cases s with
  | nil => exact absurd h (by simp [readChar])
  | cons x s =>
    rw [readChar] at h
    split at h
    · next hx => rw [hx, Option.some.inj h]
    · exact absurd h (by simp)

lemma readChar_cons (c : Char) (rest : List Char) : readChar c (c :: rest) = some rest := by
  rw [readChar, if_pos rfl]

/-- An octet is read from its digits without zeros in front. -/
lemma of_readOctet {s rest : List Char} {a : UInt8} (h : readOctet s = some (a, rest)) :
    s = Nat.toDigits 10 a.toNat ++ rest ∧ s.dropWhile Char.isDigit = rest := by
  unfold readOctet at h
  dsimp only at h
  split at h
  · exact absurd h (by simp)
  next hvalid =>
  obtain ⟨rfl, rfl⟩ := Prod.mk.inj (Option.some.inj h)
  simp only [not_or] at hvalid
  obtain ⟨hne, -, hzero, hlt⟩ := hvalid
  have hdigits : ∀ c ∈ s.takeWhile Char.isDigit, c.isDigit = true :=
    fun c hc => List.all_eq_true.1 List.all_takeWhile c hc
  have hcanonical : Nat.toDigits 10 (Nat.ofDigitChars 10 (s.takeWhile Char.isDigit) 0)
      = s.takeWhile Char.isDigit := by
    refine Digits.toDigits_ofDigitChars hdigits hne fun hhead => ?_
    -- a zero in front is the only digit
    have hlength : ¬1 < (s.takeWhile Char.isDigit).length := fun hlong => hzero ⟨hhead, hlong⟩
    cases htake : s.takeWhile Char.isDigit with
    | nil => exact absurd htake hne
    | cons c digits =>
      rw [htake] at hhead hlength
      rw [List.length_cons] at hlength
      have hnil : digits = [] := List.eq_nil_of_length_eq_zero (by omega)
      rw [hnil, Option.some.inj hhead]
  have hvalue : (UInt8.ofNat (Nat.ofDigitChars 10 (s.takeWhile Char.isDigit) 0)).toNat
      = Nat.ofDigitChars 10 (s.takeWhile Char.isDigit) 0 := UInt8.toNat_ofNat_of_lt' (by
    change _ < 256
    omega)
  rw [hvalue, hcanonical]
  exact ⟨List.takeWhile_append_dropWhile.symm, rfl⟩

/-- An octet is read back from its digits. -/
lemma readOctet_toDigits (a : UInt8) {rest : List Char}
    (h : ∀ c ∈ rest.head?, c.isDigit = false) :
    readOctet (Nat.toDigits 10 a.toNat ++ rest) = some (a, rest) := by
  have hlt : a.toNat < 256 := a.toNat_lt
  have hlength : (Nat.toDigits 10 a.toNat).length ≤ 3 :=
    (Nat.length_toDigits_le_iff (by decide) (by decide)).2 (by omega)
  -- only zero itself begins with a zero
  have hzero : ¬((Nat.toDigits 10 a.toNat).head? = some '0' ∧
      1 < (Nat.toDigits 10 a.toNat).length) := by
    by_cases hpos : 0 < a.toNat
    · obtain ⟨c, digits, hdigits, hc⟩ := toDigits_of_pos hpos
      rw [hdigits]
      exact fun h => hc (Option.some.inj h.1)
    · have hnil : Nat.toDigits 10 a.toNat = ['0'] := by
        rw [show a.toNat = 0 by omega]
        rfl
      rw [hnil]
      decide
  unfold readOctet
  simp only [Digits.takeWhile_append isDigit_of_toDigits h,
    Digits.dropWhile_append isDigit_of_toDigits h, Nat.ofDigitChars_ten_toDigits]
  rw [if_neg, UInt8.ofNat_toNat]
  simp only [not_or]
  exact ⟨Nat.toDigits_ne_nil, by omega, hzero, by omega⟩

end Ip

namespace Ipv4

/-- An address is read from what is written for it. -/
lemma of_read {s rest : List Char} {ip : Ipv4} (h : read s = some (ip, rest)) :
    s = ip.write ++ rest := by
  simp only [read, Option.bind_eq_bind, Option.bind_eq_some_iff] at h
  obtain ⟨⟨a, s₁⟩, ha, s₂, hs₂, ⟨b, s₃⟩, hb, s₄, hs₄, ⟨c, s₅⟩, hc, s₆, hs₆, ⟨d, s₇⟩, hd, h⟩ := h
  obtain ⟨rfl, rfl⟩ := Prod.mk.inj (Option.some.inj h)
  dsimp only at hs₂ hs₄ hs₆ ⊢
  rw [(Ip.of_readOctet ha).1, Ip.readChar_eq_some hs₂, (Ip.of_readOctet hb).1,
    Ip.readChar_eq_some hs₄, (Ip.of_readOctet hc).1, Ip.readChar_eq_some hs₆,
    (Ip.of_readOctet hd).1]
  simp [write]

/-- An address is read back. -/
lemma read_write (ip : Ipv4) {rest : List Char} (h : ∀ c ∈ rest.head?, c.isDigit = false) :
    read (ip.write ++ rest) = some (ip, rest) := by
  have hdot (s : List Char) : ∀ c ∈ ('.' :: s).head?, c.isDigit = false := by
    intro c hc
    rw [← Option.some.inj hc]
    rfl
  simp only [read, write, List.append_assoc, List.cons_append, Ip.readOctet_toDigits _ (hdot _),
    Ip.readOctet_toDigits _ h, Ip.readChar_cons, Option.bind_eq_bind, Option.bind_some]

/-- A version 4 address has a point behind its first digits. -/
lemma dot_of_read {s rest : List Char} {ip : Ipv4} (h : read s = some (ip, rest)) :
    ∃ t, s.dropWhile Char.isDigit = '.' :: t := by
  simp only [read, Option.bind_eq_bind, Option.bind_eq_some_iff] at h
  obtain ⟨⟨a, s₁⟩, ha, s₂, hs₂, -⟩ := h
  exact ⟨s₂, (Ip.of_readOctet ha).2.trans (Ip.readChar_eq_some hs₂)⟩

end Ipv4

/-! ## Groups -/

namespace Ipv6

/-- A group is read from its digits. -/
lemma of_readGroup {s rest : List Char} {g : UInt16} (h : Ip.readGroup s = some (g, rest)) :
    ∃ group, IsGroup group ∧ s = group ++ rest := by
  unfold Ip.readGroup at h
  dsimp only at h
  split at h
  · exact absurd h (by simp)
  next hvalid =>
  obtain ⟨-, rfl⟩ := Prod.mk.inj (Option.some.inj h)
  simp only [not_or] at hvalid
  have hdigits : ∀ c ∈ s.takeWhile Ip.isHexDigit, Ip.isHexDigit c = true :=
    fun c hc => List.all_eq_true.1 List.all_takeWhile c hc
  exact ⟨_, ⟨hvalid.1, by omega, hdigits⟩, List.takeWhile_append_dropWhile.symm⟩

/-- The digits of a group are read. -/
lemma readGroup_append {group rest : List Char} (hgroup : IsGroup group)
    (h : ∀ c ∈ rest.head?, Ip.isHexDigit c = false) :
    ∃ g, Ip.readGroup (group ++ rest) = some (g, rest) := by
  obtain ⟨hne, hlength, hdigits⟩ := hgroup
  have hshort : ¬(group = [] ∨ 4 < group.length) := by
    simp only [not_or]
    exact ⟨hne, by omega⟩
  unfold Ip.readGroup
  rw [Digits.takeWhile_append hdigits h, Digits.dropWhile_append hdigits h]
  exact ⟨_, if_neg hshort⟩

lemma separated_eq_some {first : Bool} {s t : List Char} (h : separated first s = some t) :
    s = lead first ++ t := by
  cases first with
  | true => exact Option.some.inj h
  | false => exact Ip.readChar_eq_some h

lemma separated_lead (first : Bool) (s : List Char) :
    separated first (lead first ++ s) = some s := by
  cases first with
  | true => rfl
  | false => exact Ip.readChar_cons ':' s

/-- What is read as groups is a row of groups. -/
lemma of_readGroups {slots : Nat} {first embedded : Bool} {s rest : List Char}
    {groups : List UInt16} (h : readGroups slots first s = (groups, embedded, rest)) :
    ∃ text, s = text ++ rest ∧ Groups first text groups.length embedded ∧
      groups.length ≤ slots := by
  -- on the groups there is still room for; a version 4 address is tried before a group
  induction slots generalizing first s groups with
  | zero =>
    obtain ⟨rfl, rfl, rfl⟩ : [] = groups ∧ false = embedded ∧ s = rest := by
      simpa [readGroups] using h
    exact ⟨[], rfl, .nil, Nat.le_refl 0⟩
  | succ slots ih =>
    rw [readGroups] at h
    split at h
    · next ip rest' hembedded =>
      split at hembedded
      · exact absurd hembedded (by simp)
      next hslots =>
      obtain ⟨t, hlead, hread⟩ := Option.bind_eq_some_iff.1 hembedded
      obtain ⟨rfl, rfl, rfl⟩ : ip.toGroups = groups ∧ true = embedded ∧ rest' = rest := by
        simpa using h
      refine ⟨lead first ++ ip.write, ?_, .version4 ip, ?_⟩
      · rw [separated_eq_some hlead, Ipv4.of_read hread, List.append_assoc]
      · change 2 ≤ slots + 1
        omega
    split at h
    · next g rest' hgroup =>
      obtain ⟨t, hlead, hread⟩ := Option.bind_eq_some_iff.1 hgroup
      obtain ⟨group, hdigits, rfl⟩ := of_readGroup hread
      generalize hmore : readGroups slots false rest' = more at h
      obtain ⟨groups', embedded', rest''⟩ := more
      obtain ⟨rfl, rfl, rfl⟩ : g :: groups' = groups ∧ embedded' = embedded ∧ rest'' = rest := by
        simpa using h
      obtain ⟨text, rfl, htext, hle⟩ := ih hmore
      refine ⟨lead first ++ (group ++ text), ?_, .cons hdigits htext, Nat.succ_le_succ hle⟩
      rw [separated_eq_some hlead]
      simp
    · obtain ⟨rfl, rfl, rfl⟩ : [] = groups ∧ false = embedded ∧ s = rest := by simpa using h
      exact ⟨[], rfl, .nil, Nat.zero_le _⟩

/-- What may stand behind a row of groups: nothing, or the two colons of a shorter form. -/
def Ends (rest : List Char) : Prop := rest = [] ∨ ∃ more, rest = ':' :: ':' :: more

/-- Behind a group stands nothing or a colon. -/
def Breaks (rest : List Char) : Prop := rest = [] ∨ ∃ more, rest = ':' :: more

lemma Ends.breaks {rest : List Char} (h : Ends rest) : Breaks rest :=
  h.imp_right fun ⟨_, hmore⟩ => ⟨_, hmore⟩

lemma Breaks.head {p : Char → Bool} {rest : List Char} (h : Breaks rest) (hcolon : p ':' = false) :
    ∀ c ∈ rest.head?, p c = false := by
  intro c hc
  obtain rfl | ⟨more, rfl⟩ := h
  · exact absurd hc (by simp)
  · rw [← Option.some.inj hc]
    exact hcolon

lemma Groups.breaks {text rest : List Char} {count : Nat} {embedded : Bool}
    (h : Groups false text count embedded) (hrest : Ends rest) : Breaks (text ++ rest) := by
  cases h with
  | nil => exact hrest.breaks
  | version4 ip => exact .inr ⟨_, rfl⟩
  | cons hgroup h => exact .inr ⟨_, rfl⟩

/-- A group is not the start of a version 4 address. -/
lemma read_group {group rest : List Char} (hgroup : ∀ c ∈ group, Ip.isHexDigit c = true)
    (hrest : Breaks rest) : Ipv4.read (group ++ rest) = none := by
  -- no dot stands behind the digits of a group
  have hdot : ∀ t, (group ++ rest).dropWhile Char.isDigit ≠ '.' :: t := by
    intro t
    induction group with
    | nil =>
      obtain rfl | ⟨more, rfl⟩ := hrest
      · simp
      · have hcolon : (':').isDigit = false := rfl
        simp [hcolon]
    | cons c group ih =>
      have hc := hgroup c List.mem_cons_self
      rw [List.cons_append, List.dropWhile_cons]
      split
      · exact ih fun d hd => hgroup d (List.mem_cons_of_mem _ hd)
      · intro heq
        rw [(List.cons.inj heq).1] at hc
        exact absurd hc (by decide)
  cases hread : Ipv4.read (group ++ rest) with
  | none => rfl
  | some p =>
    obtain ⟨t, ht⟩ := Ipv4.dot_of_read (s := group ++ rest) hread
    exact absurd ht (hdot t)

lemma readGroups_of_ends (slots : Nat) (first : Bool) {rest : List Char} (h : Ends rest) :
    readGroups slots first rest = ([], false, rest) := by
  -- behind the separator stands nothing or another colon, which begins no number
  have hread : (separated first rest).bind Ipv4.read = none ∧
      (separated first rest).bind Ip.readGroup = none := by
    obtain rfl | ⟨more, rfl⟩ := h
    · cases first <;> decide
    · cases first <;> exact ⟨rfl, rfl⟩
  cases slots with
  | zero => rfl
  | succ slots => simp [readGroups, hread]

/-- A row of groups is read if there is room for it. -/
lemma readGroups_append {slots count : Nat} {first embedded : Bool} {text rest : List Char}
    (h : Groups first text count embedded) (hcount : count ≤ slots) (hrest : Ends rest) :
    ∃ groups, readGroups slots first (text ++ rest) = (groups, embedded, rest) ∧
      groups.length = count := by
  -- along the row, each group of which takes one of the places that are left
  induction h generalizing slots with
  | @nil first => exact ⟨[], readGroups_of_ends slots first hrest, rfl⟩
  | @version4 first ip =>
    have hdigit := hrest.breaks.head (p := Char.isDigit) rfl
    cases slots with
    | zero => omega
    | succ slots =>
      have hread : (separated first (lead first ++ ip.write ++ rest)).bind Ipv4.read
          = some (ip, rest) := by
        rw [List.append_assoc, separated_lead, Option.bind_some, Ipv4.read_write ip hdigit]
      refine ⟨ip.toGroups, ?_, rfl⟩
      rw [readGroups, if_neg (by omega), hread]
  | @cons first embedded group text count hgroup h ih =>
    have hbreaks := h.breaks hrest
    cases slots with
    | zero => omega
    | succ slots =>
      obtain ⟨g, hg⟩ := readGroup_append hgroup (hbreaks.head rfl)
      obtain ⟨groups, hgroups, hlength⟩ := ih (Nat.le_of_succ_le_succ hcount)
      have hsplit : lead first ++ (group ++ text) ++ rest
          = lead first ++ (group ++ (text ++ rest)) := by simp
      -- the digits of a group end at a colon, so that it is not taken for a version 4 address
      have hversion4 : (if slots = 0 then none else (separated first
          (lead first ++ (group ++ (text ++ rest)))).bind Ipv4.read) = none := by
        rw [separated_lead, Option.bind_some, read_group hgroup.2.2 hbreaks, ite_self]
      have hread : (separated first (lead first ++ (group ++ (text ++ rest)))).bind Ip.readGroup
          = some (g, text ++ rest) := by
        rw [separated_lead, Option.bind_some, hg]
      refine ⟨g :: groups, ?_, by rw [List.length_cons, hlength]⟩
      rw [hsplit, readGroups, hversion4, hread]
      simp only [hgroups]

/-! ## Version 6 -/

/-- What is read as an address is the text of one. -/
lemma literal_of_read {s : List Char} {ip : Ipv6} (h : read s = some (ip, [])) : Literal s := by
  unfold read at h
  -- first what stands in front of two colons, or the whole
  generalize hhead : readGroups 8 true s = head at h
  obtain ⟨groups, embedded, rest⟩ := head
  obtain ⟨text, rfl, htext, hroom⟩ := of_readGroups hhead
  dsimp only at h
  split at h
  · next hlength =>
    obtain ⟨-, rfl⟩ := Prod.mk.inj (Option.some.inj h)
    rw [hlength] at htext
    rw [List.append_nil]
    exact .full htext
  next hlength =>
  split at h
  · exact absurd h (by simp)
  next hembedded =>
  simp only [Option.bind_eq_bind, Option.bind_eq_some_iff] at h
  obtain ⟨t₁, ht₁, t₂, ht₂, h⟩ := h
  obtain rfl := Ip.readChar_eq_some ht₁
  obtain rfl := Ip.readChar_eq_some ht₂
  generalize htail : readGroups (7 - groups.length) true t₂ = tail at h
  obtain ⟨groups', embedded', rest'⟩ := tail
  obtain ⟨-, rfl⟩ := Prod.mk.inj (Option.some.inj h)
  obtain ⟨text', rfl, htext', hle⟩ := of_readGroups htail
  rw [Bool.not_eq_true] at hembedded
  rw [hembedded] at htext
  rw [List.append_nil]
  exact .shortened htext htext' (by omega)

/-- The text of an address is read as one. -/
lemma read_of_literal {s : List Char} (h : Literal s) : ∃ ip, read s = some (ip, []) := by
  cases h with
  | full h =>
    obtain ⟨groups, hgroups, hlength⟩ := readGroups_append h (Nat.le_refl 8) (.inl rfl)
    rw [List.append_nil] at hgroups
    exact ⟨ofEnds groups [], by simp [read, hgroups, hlength]⟩
  | @shortened head tail n m embedded hhead htail hcount =>
    have hcolons : Ends (':' :: ':' :: tail) := .inr ⟨tail, rfl⟩
    obtain ⟨groups, hgroups, hlength⟩ := readGroups_append hhead (show n ≤ 8 by omega) hcolons
    have hroom : m ≤ 7 - groups.length := by omega
    obtain ⟨groups', hgroups', -⟩ := readGroups_append htail hroom (.inl rfl)
    rw [List.append_nil] at hgroups'
    have hfew : groups.length ≠ 8 := by omega
    refine ⟨ofEnds groups groups', ?_⟩
    simp [read, hgroups, hgroups', hfew, Ip.readChar_cons]

lemma read_version4_of_groups {text rest : List Char} {count : Nat} {embedded : Bool}
    (h : Groups true text count embedded) (hversion : embedded = true → 2 < count)
    (hrest : Ends rest) : Ipv4.read (text ++ rest) = none := by
  cases h with
  | nil =>
    obtain rfl | ⟨more, rfl⟩ := hrest
    · decide
    · rfl
  | version4 ip => exact absurd (hversion rfl) (by decide)
  | cons hgroup h =>
    rw [lead, if_pos rfl, List.nil_append, List.append_assoc]
    exact read_group hgroup.2.2 (h.breaks hrest)

/-- No text is an address of both versions. -/
lemma Literal.read_version4 {s : List Char} (h : Literal s) : Ipv4.read s = none := by
  cases h with
  | full h =>
    have hread := read_version4_of_groups h (fun _ => by decide) (.inl rfl)
    rwa [List.append_nil] at hread
  | @shortened head tail n m embedded hhead htail hcount =>
    exact read_version4_of_groups hhead (fun h => absurd h (by decide)) (.inr ⟨tail, rfl⟩)

end Ipv6

/-! ## Both versions -/

/-- Exactly the texts of addresses are read. -/
theorem Ip.isSome_parse? (text : String) : (Ip.parse? text).isSome ↔ Literal text.toList := by
  have hread : (Ip.parse? text).isSome ↔ ∃ ip, Ip.read text.toList = some (ip, []) := by
    unfold Ip.parse?
    constructor
    · intro h
      split at h
      · next ip hread => exact ⟨ip, hread⟩
      · exact absurd h (by simp)
    · rintro ⟨ip, hread⟩
      rw [hread]
      rfl
  rw [hread]
  constructor
  · rintro ⟨ip, h⟩
    unfold Ip.read at h
    split at h
    · next ip' rest hversion4 =>
      obtain ⟨-, rfl⟩ := Prod.mk.inj (Option.some.inj h)
      exact .inl ⟨ip', by rw [Ipv4.of_read hversion4, List.append_nil]⟩
    · obtain ⟨⟨ip', rest⟩, hversion6, hpair⟩ := Option.map_eq_some_iff.1 h
      obtain ⟨-, rfl⟩ := Prod.mk.inj hpair
      exact .inr (Ipv6.literal_of_read hversion6)
  · rintro (⟨ip, h⟩ | h)
    · have hversion4 : Ipv4.read text.toList = some (ip, []) := by
        have hread := Ipv4.read_write ip (fun c (hc : c ∈ [].head?) => absurd hc (by simp))
        rwa [List.append_nil, ← h] at hread
      exact ⟨.v4 ip, by rw [Ip.read, hversion4]⟩
    · -- a literal of version 6 is no address of version 4, which is tried first
      obtain ⟨ip, hversion6⟩ := Ipv6.read_of_literal h
      exact ⟨.v6 ip, by rw [Ip.read, h.read_version4, hversion6]; rfl⟩

end Switchboard
