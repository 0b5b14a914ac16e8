import Mathlib.Tactic.Lemma
import Switchboard.Discovery.Monitor

/-!
# Sets of addresses

An enumeration lists addresses in any order and may list one several times; what is made of it is
the set of them, in ascending order.

* `Ipv4.toNat_inj` says that an address is determined by its number, by which sets are ordered.
* `mem_addresses` and `ascending_addresses` say what the set of an enumeration is.
-/

namespace Switchboard

/-- An address is determined by its number. -/
theorem Ipv4.toNat_inj {x y : Ipv4} (h : x.toNat = y.toNat) : x = y := by
  obtain ⟨a, b, c, d⟩ := x
  obtain ⟨a', b', c', d'⟩ := y
  have hb := b.toNat_lt
  have hb' := b'.toNat_lt
  have hc := c.toNat_lt
  have hc' := c'.toNat_lt
  have hd := d.toNat_lt
  have hd' := d'.toNat_lt
  simp only [toNat] at h
  obtain ⟨ha, hb, hc, hd⟩ : a.toNat = a'.toNat ∧ b.toNat = b'.toNat ∧ c.toNat = c'.toNat ∧
      d.toNat = d'.toNat := by omega
  rw [UInt8.toNat_inj.1 ha, UInt8.toNat_inj.1 hb, UInt8.toNat_inj.1 hc, UInt8.toNat_inj.1 hd]

/-- Addresses in ascending order, none twice. -/
def Ascending (addresses : List Ipv4) : Prop := addresses.Pairwise fun x y => x.toNat < y.toNat

lemma Ascending.nodup {addresses : List Ipv4} (h : Ascending addresses) : addresses.Nodup :=
  h.imp fun hlt heq => absurd (heq ▸ hlt) (Nat.lt_irrefl _)

namespace AddressSet

variable {a x : Ipv4} {s : AddressSet}

lemma mem_insert : x ∈ insert a s ↔ x = a ∨ x ∈ s := by
  induction s with
  | nil => simp [insert]
  | cons b rest ih =>
    rw [insert]
    split
    · simp
    · split
      · next heq =>
        obtain rfl := Ipv4.toNat_inj heq
        simp
      · rw [List.mem_cons, ih, List.mem_cons]
        exact or_left_comm

lemma ascending_insert (h : Ascending s) : Ascending (insert a s) := by
  induction s with
  | nil => exact List.pairwise_singleton _ a
  | cons b rest ih =>
    obtain ⟨hb, hrest⟩ := List.pairwise_cons.1 h
    rw [insert]
    split
    · next hlt =>
      refine List.pairwise_cons.2 ⟨fun y hy => ?_, h⟩
      rcases List.mem_cons.1 hy with rfl | hy
      · exact hlt
      · exact Nat.lt_trans hlt (hb y hy)
    · split
      · exact h
      · next hlt heq =>
        refine List.pairwise_cons.2 ⟨fun y hy => ?_, ih hrest⟩
        rcases mem_insert.1 hy with rfl | hy
        · omega
        · exact hb y hy

lemma mem_ofList {addresses : List Ipv4} : x ∈ ofList addresses ↔ x ∈ addresses := by
  induction addresses with
  | nil => rfl
  | cons b rest ih =>
    change x ∈ insert b (ofList rest) ↔ _
    rw [mem_insert, ih, List.mem_cons]

lemma ascending_ofList (addresses : List Ipv4) : Ascending (ofList addresses) := by
  induction addresses with
  | nil => exact .nil
  | cons b rest ih => exact ascending_insert ih

end AddressSet

namespace Enumeration

/-- The set of an enumeration holds what it lists, and nothing if it has failed. -/
theorem mem_addresses {e : Enumeration} {a : Ipv4} : a ∈ e.addresses ↔ a ∈ e.getD [] :=
  AddressSet.mem_ofList

theorem ascending_addresses (e : Enumeration) : Ascending e.addresses :=
  AddressSet.ascending_ofList _

end Enumeration
end Switchboard
