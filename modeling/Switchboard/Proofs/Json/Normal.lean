import Switchboard.Proofs.Json.Values

/-!
# Normal values

Normalizing a value leaves it alone if it is normal, and makes it normal in any case. It nests no
deeper then, and holds no other numbers.
-/

namespace Switchboard.Json

/-! ## Maps -/

lemma keysAscend_cons {key : String} {v : Json} {fields : List Member} :
    KeysAscend ((key, v) :: fields) ↔ (∀ m ∈ fields, key < m.1) ∧ KeysAscend fields := by
  simp [KeysAscend]

lemma lt_of_not_lt {a b : String} (hne : a ≠ b) (h : ¬a < b) : b < a := by
  by_cases hlt : b < a
  · exact hlt
  · exact absurd (String.le_antisymm (String.not_lt.1 hlt) (String.not_lt.1 h)) hne

lemma mem_insert {key : String} {v : Json} {fields : List Member} {m : Member}
    (h : m ∈ insert key v fields) : m = (key, v) ∨ m ∈ fields := by
  induction fields with
  | nil => exact .inl (List.mem_singleton.1 h)
  | cons field fields ih =>
    unfold insert at h
    split at h
    · obtain h | h := List.mem_cons.1 h
      · exact .inl h
      · exact .inr (List.mem_cons_of_mem _ h)
    split at h
    · exact List.mem_cons.1 h
    · obtain rfl | h := List.mem_cons.1 h
      · exact .inr List.mem_cons_self
      · obtain h | h := ih h
        · exact .inl h
        · exact .inr (List.mem_cons_of_mem _ h)

lemma keysAscend_insert {key : String} {v : Json} {fields : List Member}
    (h : KeysAscend fields) : KeysAscend (insert key v fields) := by
  induction fields with
  | nil => simp [insert, KeysAscend]
  | cons field fields ih =>
    obtain ⟨k, w⟩ := field
    obtain ⟨hlt, hfields⟩ := keysAscend_cons.1 h
    unfold insert
    split
    · next heq =>
      subst heq
      exact keysAscend_cons.2 ⟨hlt, hfields⟩
    next hne =>
    split
    · next hkey =>
      refine keysAscend_cons.2 ⟨fun m hm => ?_, h⟩
      obtain rfl | hm := List.mem_cons.1 hm
      · exact hkey
      · exact String.lt_trans hkey (hlt m hm)
    · next hkey =>
      refine keysAscend_cons.2 ⟨fun m hm => ?_, ih hfields⟩
      obtain rfl | hm := mem_insert hm
      · exact lt_of_not_lt hne hkey
      · exact hlt m hm

/-- A key above all others comes last. -/
lemma insert_of_lt {key : String} {v : Json} {fields : List Member}
    (h : ∀ m ∈ fields, m.1 < key) : insert key v fields = fields ++ [(key, v)] := by
  induction fields with
  | nil => rfl
  | cons field fields ih =>
    have hfield := h field List.mem_cons_self
    have hne : key ≠ field.1 := fun heq => String.lt_irrefl _ (heq ▸ hfield)
    have hnot : ¬key < field.1 := String.lt_asymm hfield
    rw [insert, if_neg hne, if_neg hnot, ih fun m hm => h m (List.mem_cons_of_mem _ hm),
      List.cons_append]

/-- Members whose keys ascend are inserted as they stand. -/
lemma foldl_insert_of_ascend {fields : List Member} (acc : List Member)
    (h : KeysAscend (acc ++ fields)) :
    fields.foldl (fun m (k, v) => insert k v m) acc = acc ++ fields := by
  induction fields generalizing acc with
  | nil => simp
  | cons field fields ih =>
    obtain ⟨key, v⟩ := field
    -- keys that ascend are inserted at the end
    have hlt : ∀ m ∈ acc, m.1 < key := by
      intro m hm
      rw [KeysAscend, List.map_append, List.pairwise_append] at h
      exact h.2.2 m.1 (List.mem_map_of_mem hm) key (by simp)
    have hinsert := insert_of_lt (v := v) hlt
    rw [List.foldl_cons]
    change fields.foldl _ (insert key v acc) = _
    rw [hinsert, ih (acc ++ [(key, v)]) (by simpa using h)]
    simp

/-- A map is its own map. -/
lemma toMap_of_ascend {fields : List Member} (h : KeysAscend fields) : toMap fields = fields :=
  foldl_insert_of_ascend [] h

lemma of_foldl_insert {fields : List Member} (acc : List Member) (hacc : KeysAscend acc) :
    KeysAscend (fields.foldl (fun m (k, v) => insert k v m) acc) ∧
      ∀ m ∈ fields.foldl (fun m (k, v) => insert k v m) acc, m ∈ acc ∨ m ∈ fields := by
  induction fields generalizing acc with
  | nil => exact ⟨hacc, fun m hm => .inl hm⟩
  | cons field fields ih =>
    obtain ⟨hascend, hmem⟩ := ih (insert field.1 field.2 acc) (keysAscend_insert hacc)
    refine ⟨hascend, fun m hm => ?_⟩
    obtain hm | hm := hmem m hm
    · obtain rfl | hm := mem_insert hm
      · exact .inr List.mem_cons_self
      · exact .inl hm
    · exact .inr (List.mem_cons_of_mem _ hm)

/-- The keys of a map ascend. -/
lemma keysAscend_toMap (fields : List Member) : KeysAscend (toMap fields) :=
  (of_foldl_insert [] List.Pairwise.nil).1

/-- A map has no members but those it was made of. -/
lemma mem_of_mem_toMap {fields : List Member} {m : Member} (h : m ∈ toMap fields) :
    m ∈ fields := by
  obtain h | h := (of_foldl_insert [] List.Pairwise.nil).2 m h
  · exact absurd h (by simp)
  · exact h

/-! ## Normal values stay -/

lemma areNormal_iff {items : List Json} : AreNormal items ↔ ∀ v ∈ items, v.IsNormal := by
  induction items with
  | nil => simp [AreNormal]
  | cons v items ih => simp [AreNormal, ih]

lemma areNormalMembers_iff {fields : List Member} :
    AreNormalMembers fields ↔ ∀ m ∈ fields, m.2.IsNormal := by
  induction fields with
  | nil => simp [AreNormalMembers]
  | cons m fields ih => simp [AreNormalMembers, ih]

mutual

/-- A normal value is left alone. -/
theorem normalize_of_isNormal : {v : Json} → v.IsNormal → v.normalize = v
  | .arr _, h => by rw [normalize, normalizeItems_of_areNormal h]
  | .obj _, h => by rw [normalize, normalizeMembers_of_areNormal h.2, toMap_of_ascend h.1]
  | .null, _ | .bool _, _ | .num _, _ | .str _, _ => rfl

/-- Normal items are their own normal form. -/
lemma normalizeItems_of_areNormal : {items : List Json} → AreNormal items →
    normalizeItems items = items
  | [], _ => rfl
  | _ :: _, h => by
    rw [normalizeItems, normalize_of_isNormal h.1, normalizeItems_of_areNormal h.2]

/-- Normal members are their own normal form. -/
lemma normalizeMembers_of_areNormal : {fields : List Member} → AreNormalMembers fields →
    normalizeMembers fields = fields
  | [], _ => rfl
  | _ :: _, h => by
    rw [normalizeMembers, normalize_of_isNormal h.1, normalizeMembers_of_areNormal h.2]

end

/-! ## What normalizing makes of a value -/

lemma mem_normalizeMembers {fields : List Member} {m : Member}
    (h : m ∈ normalizeMembers fields) : ∃ field ∈ fields, m.2 = field.2.normalize := by
  induction fields with
  | nil => exact absurd h (by simp [normalizeMembers])
  | cons field fields ih =>
    obtain rfl | h := List.mem_cons.1 h
    · exact ⟨field, List.mem_cons_self, rfl⟩
    · obtain ⟨field', hfield, hm⟩ := ih h
      exact ⟨field', List.mem_cons_of_mem _ hfield, hm⟩

lemma mem_normalizeItems {items : List Json} {v : Json} (h : v ∈ normalizeItems items) :
    ∃ w ∈ items, v = w.normalize := by
  induction items with
  | nil => exact absurd h (by simp [normalizeItems])
  | cons w items ih =>
    obtain rfl | h := List.mem_cons.1 h
    · exact ⟨w, List.mem_cons_self, rfl⟩
    · obtain ⟨w', hw, hv⟩ := ih h
      exact ⟨w', List.mem_cons_of_mem _ hw, hv⟩

/-- What is true of a value that another has been normalized to. -/
structure Normalizes (v w : Json) : Prop where
  isNormal : w.IsNormal
  depth_le : w.depth ≤ v.depth
  numbers : ∀ n ∈ w.numbers, n ∈ v.numbers

/-- A list is normalized item by item. -/
lemma Normalizes.arr {items : List Json} (h : ∀ v ∈ items, Normalizes v v.normalize) :
    Normalizes (.arr items) (.arr (normalizeItems items)) := by
  refine ⟨areNormal_iff.2 fun v hv => ?_, ?_, fun n hn => ?_⟩
  · obtain ⟨w, hw, rfl⟩ := mem_normalizeItems hv
    exact (h w hw).isNormal
  · refine Nat.add_le_add_right (depthItems_le_iff.2 fun v hv => ?_) 1
    obtain ⟨w, hw, rfl⟩ := mem_normalizeItems hv
    exact Nat.le_trans (h w hw).depth_le (depthItems_le_iff.1 (Nat.le_refl _) w hw)
  · obtain ⟨v, hv, hn⟩ := mem_numbersItems.1 hn
    obtain ⟨w, hw, rfl⟩ := mem_normalizeItems hv
    exact mem_numbersItems.2 ⟨w, hw, (h w hw).numbers n hn⟩

/-- An object is normalized member by member, and then sorted. -/
lemma Normalizes.obj {fields : List Member} (h : ∀ m ∈ fields, Normalizes m.2 m.2.normalize) :
    Normalizes (.obj fields) (.obj (toMap (normalizeMembers fields))) := by
  have hmem : ∀ m ∈ toMap (normalizeMembers fields), ∃ field ∈ fields, m.2 = field.2.normalize :=
    fun m hm => mem_normalizeMembers (mem_of_mem_toMap hm)
  refine ⟨⟨keysAscend_toMap _, areNormalMembers_iff.2 fun m hm => ?_⟩, ?_, fun n hn => ?_⟩
  · obtain ⟨field, hfield, heq⟩ := hmem m hm
    rw [heq]
    exact (h field hfield).isNormal
  · refine Nat.add_le_add_right (depthMembers_le_iff.2 fun m hm => ?_) 1
    obtain ⟨field, hfield, heq⟩ := hmem m hm
    rw [heq]
    exact Nat.le_trans (h field hfield).depth_le
      (depthMembers_le_iff.1 (Nat.le_refl _) field hfield)
  · obtain ⟨m, hm, hn⟩ := mem_numbersMembers.1 hn
    obtain ⟨field, hfield, heq⟩ := hmem m hm
    rw [heq] at hn
    exact mem_numbersMembers.2 ⟨field, hfield, (h field hfield).numbers n hn⟩

mutual

lemma normalizes : (v : Json) → Normalizes v v.normalize
  | .arr items => .arr (normalizes_items items)
  | .obj fields => .obj (normalizes_members fields)
  | .null | .bool _ | .num _ | .str _ => ⟨trivial, Nat.le_refl _, fun _ hn => hn⟩

lemma normalizes_items : (items : List Json) → ∀ v ∈ items, Normalizes v v.normalize
  | [] => fun _ hv => absurd hv (by simp)
  | v :: items => List.forall_mem_cons.2 ⟨normalizes v, normalizes_items items⟩

lemma normalizes_members : (fields : List Member) →
    ∀ m ∈ fields, Normalizes m.2 m.2.normalize
  | [] => fun _ hm => absurd hm (by simp)
  | (_, v) :: fields => List.forall_mem_cons.2 ⟨normalizes v, normalizes_members fields⟩

end

end Switchboard.Json
