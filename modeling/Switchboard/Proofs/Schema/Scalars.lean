import Mathlib.Tactic.Lemma
import Switchboard.Schema.Mismatch

/-!
# What scalars are decoded from

Each decoder of a scalar accepts one kind of value alone, and what it answers determines the value
that it was given.
-/

namespace Switchboard.Found

lemma asString_eq_ok_iff {f : Found} {s : String} : f.asString = .ok s ↔ f = .str s := by
  constructor
  · intro h
    cases f with
    | str t => rw [Except.ok.inj h]
    | _ => exact absurd h (by simp [asString])
  · rintro rfl
    rfl

lemma asNatural_eq_ok_iff {f : Found} {bound n : Nat} {expected : Expected} :
    f.asNatural bound expected = .ok n ↔ f = .int n ∧ n < bound := by
  constructor
  · intro h
    cases f with
    | int k =>
      rw [asNatural] at h
      split at h
      · next hk =>
        obtain rfl := Except.ok.inj h
        exact ⟨by rw [Int.toNat_of_nonneg hk.1], hk.2⟩
      · exact absurd h (by simp)
    | _ => exact absurd h (by simp [asNatural])
  · rintro ⟨rfl, hn⟩
    have hnat : ((n : Int)).toNat = n := rfl
    rw [asNatural, if_pos ⟨Int.natCast_nonneg n, hn⟩, hnat]

/-- A number below `bound` as a word of a type that holds the numbers below `bound`. -/
lemma map_asNatural_eq_ok_iff {α : Type} {f : Found} {bound : Nat} {expected : Expected}
    {ofNat : Nat → α} {toNat : α → Nat} (hlt : ∀ w, toNat w < bound)
    (hof : ∀ w, ofNat (toNat w) = w) (hto : ∀ n, n < bound → toNat (ofNat n) = n) {w : α} :
    (f.asNatural bound expected).map ofNat = .ok w ↔ f = .int (toNat w) := by
  constructor
  · intro h
    cases hn : f.asNatural bound expected with
    | error e =>
      rw [hn] at h
      exact absurd h (by simp [Except.map])
    | ok n =>
      rw [hn] at h
      obtain rfl := Except.ok.inj h
      obtain ⟨rfl, hbound⟩ := asNatural_eq_ok_iff.1 hn
      rw [hto n hbound]
  · intro h
    rw [asNatural_eq_ok_iff.2 ⟨h, hlt w⟩, Except.map, hof]

lemma asWord16_eq_ok_iff {f : Found} {w : UInt16} : f.asWord16 = .ok w ↔ f = .int w.toNat :=
  map_asNatural_eq_ok_iff UInt16.toNat_lt (fun _ => UInt16.ofNat_toNat)
    fun _ => UInt16.toNat_ofNat_of_lt

lemma asWord64_eq_ok_iff {f : Found} {w : UInt64} : f.asWord64 = .ok w ↔ f = .int w.toNat :=
  map_asNatural_eq_ok_iff UInt64.toNat_lt (fun _ => UInt64.ofNat_toNat)
    fun _ => UInt64.toNat_ofNat_of_lt

lemma asCount_eq_ok_iff {f : Found} {w : UInt64} : f.asCount = .ok w ↔ f = .int w.toNat :=
  map_asNatural_eq_ok_iff UInt64.toNat_lt (fun _ => UInt64.ofNat_toNat)
    fun _ => UInt64.toNat_ofNat_of_lt

end Switchboard.Found
