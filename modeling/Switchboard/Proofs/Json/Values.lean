import Switchboard.Proofs.Json.Tokens

/-!
# Values as they are written and read

* `value_write` reads back a value whose numbers are whole and have 64 bits, at any nesting that the
  reader admits.
* `readable_of_value` says what is true of every value that is read: it nests no deeper than the
  reader admits, and its whole numbers have 64 bits.

Both rest on the loops over the elements of an array and the members of an object, whatever the
step is that reads one of them: `elements_write` and `members_write` follow a loop over what has
been written, `elements_keep` and `members_keep` carry through a loop what each step keeps.
-/

namespace Switchboard.Json

/-! ## The numbers of a value -/

mutual

/-- The numbers in a value, at every level. -/
def numbers : Json → List Number
  | .num n => [n]
  | .arr items => numbersItems items
  | .obj members => numbersMembers members
  | _ => []

/-- The numbers in items. -/
def numbersItems : List Json → List Number
  | [] => []
  | v :: rest => numbers v ++ numbersItems rest

/-- The numbers in the values of members. -/
def numbersMembers : List Member → List Number
  | [] => []
  | (_, v) :: rest => numbers v ++ numbersMembers rest

end

lemma mem_numbersItems {n : Number} {items : List Json} :
    n ∈ numbersItems items ↔ ∃ v ∈ items, n ∈ v.numbers := by
  induction items with
  | nil => simp [numbersItems]
  | cons v items ih => simp [numbersItems, ih]

lemma mem_numbersMembers {n : Number} {members : List Member} :
    n ∈ numbersMembers members ↔ ∃ m ∈ members, n ∈ m.2.numbers := by
  induction members with
  | nil => simp [numbersMembers]
  | cons m members ih => simp [numbersMembers, ih]

lemma depthItems_le_iff {items : List Json} {levels : Nat} :
    depthItems items ≤ levels ↔ ∀ v ∈ items, v.depth ≤ levels := by
  induction items with
  | nil => simp [depthItems]
  | cons v items ih => rw [depthItems, Nat.max_le, ih, List.forall_mem_cons]

lemma depthMembers_le_iff {members : List Member} {levels : Nat} :
    depthMembers members ≤ levels ↔ ∀ m ∈ members, m.2.depth ≤ levels := by
  induction members with
  | nil => simp [depthMembers]
  | cons m members ih => rw [depthMembers, Nat.max_le, ih, List.forall_mem_cons]

/-- A value is written so that it starts one. -/
lemma starts_write {v : Json} (h : ∀ n ∈ v.numbers, n.Exact) : Starts v.write := by
  cases v with
  | null => exact ⟨'n', _, rfl, by decide, by decide, by decide⟩
  | bool b => cases b <;> exact ⟨_, _, rfl, by decide, by decide, by decide⟩
  | num n =>
    have hn := h n (by simp [numbers])
    cases n with
    | int k => exact starts_writeInt hn
    | float x => exact absurd hn id
  | str s => exact starts_writeString s
  | arr items => exact ⟨'[', _, rfl, by decide, by decide, by decide⟩
  | obj members => exact ⟨'\x7b', _, rfl, by decide, by decide, by decide⟩

/-! ## Loops over what has been written -/

lemma commaSeparated_cons (x : List Char) (texts : List (List Char)) :
    commaSeparated (x :: texts) = x ++ texts.flatMap (',' :: ·) := by
  induction texts generalizing x with
  | nil => simp [commaSeparated]
  | cons y texts ih => rw [commaSeparated, ih, List.flatMap_cons, List.cons_append]

/-- There are no more texts than characters. -/
lemma length_le_commaSeparated {texts : List (List Char)} (h : ∀ x ∈ texts, x ≠ []) :
    texts.length ≤ (commaSeparated texts).length := by
  cases texts with
  | nil => exact Nat.zero_le _
  | cons x texts =>
    have hx := List.length_pos_iff.2 (h x List.mem_cons_self)
    have htexts : texts.length ≤ (texts.flatMap (',' :: ·)).length := by
      induction texts with
      | nil => exact Nat.zero_le _
      | cons y texts ih =>
        have hrest := ih fun z hz => h z (by
          obtain rfl | hz := List.mem_cons.1 hz
          · exact List.mem_cons_self
          · exact List.mem_cons_of_mem _ (List.mem_cons_of_mem _ hz))
        rw [List.flatMap_cons, List.length_append, List.length_cons, List.length_cons]
        omega
    rw [commaSeparated_cons, List.length_append, List.length_cons]
    omega

lemma nextElement_first {text : List Char} (h : Starts text) (rest : Input) :
    nextElement true (Input.ofText text ++ rest) = .ok (some (Input.ofText text ++ rest)) := by
  obtain ⟨c, tail, rfl, hblank, hbracket, -⟩ := h
  rw [ofText_cons, List.cons_append, nextElement, skipBlank_cons hblank]
  split
  · next heq => exact absurd heq (by simp)
  · next heq => exact absurd (List.cons.inj heq).1 (by simpa using hbracket)
  · next heq =>
    obtain ⟨rfl, rfl⟩ := List.cons.inj heq
    rfl

lemma nextElement_next {text : List Char} (h : Starts text) (rest : Input) :
    nextElement false (some ',' :: (Input.ofText text ++ rest))
      = .ok (some (Input.ofText text ++ rest)) := by
  obtain ⟨c, tail, rfl, hblank, hbracket, -⟩ := h
  rw [ofText_cons, List.cons_append, nextElement_cons_comma, skipBlank_cons hblank]
  unfold behindComma
  split
  · next heq => exact absurd heq (by simp)
  · next heq => exact absurd (List.cons.inj heq).1 (by simpa using hbracket)
  · rfl

lemma stops_items (items : List Json) (rest : Input) :
    Stops (Input.ofText ((writeItems items).flatMap (',' :: ·)) ++ some ']' :: rest) := by
  cases items with
  | nil => exact stops_cons rest (by decide)
  | cons v items => exact stops_cons _ (by decide)

lemma stops_members (fields : List Member) (rest : Input) :
    Stops (Input.ofText ((writeMembers fields).flatMap (',' :: ·)) ++ some '\x7d' :: rest) := by
  cases fields with
  | nil => exact stops_cons rest (by decide)
  | cons m fields => exact stops_cons _ (by decide)

/-- From `acc`, the step of a loop reads the items one after the other and comes to `acc'`. -/
inductive ItemsRead {σ : Type} (step : σ → Input → Except Error (σ × Input)) :
    σ → List Json → σ → Prop
  | nil (acc : σ) : ItemsRead step acc [] acc
  | cons {acc next acc' : σ} {v : Json} {items : List Json} (hstarts : Starts v.write)
      (hstep : ∀ rest, Stops rest → step acc (Input.ofText v.write ++ rest) = .ok (next, rest))
      (hitems : ItemsRead step next items acc') : ItemsRead step acc (v :: items) acc'

section elements

variable {σ : Type} {step : σ → Input → Except Error (σ × Input)} {acc acc' : σ}
  {items : List Json}

/-- The items behind the first are read to the end of the list. -/
lemma elements_next (h : ItemsRead step acc items acc') {fuel : Nat}
    (hfuel : items.length < fuel) (rest : Input) :
    elements step fuel false acc
        (Input.ofText ((writeItems items).flatMap (',' :: ·)) ++ some ']' :: rest)
      = .ok (acc', some ']' :: rest) := by
  induction h generalizing fuel with
  | nil acc =>
    cases fuel with
    | zero => exact absurd hfuel (by simp)
    | succ fuel => rfl
  | @cons acc next acc' v items hstarts hstep hitems ih =>
    cases fuel with
    | zero => exact absurd hfuel (by simp)
    | succ fuel =>
      have hrest := ih (Nat.lt_of_succ_lt_succ hfuel)
      rw [writeItems, List.flatMap_cons, List.cons_append, ofText_cons, ofText_append,
        List.cons_append, List.append_assoc, elements, nextElement_next hstarts]
      simp only [malformed, bind, Except.bind]
      rw [hstep _ (stops_items items rest)]
      exact hrest

/-- A loop over written items comes to their closing bracket. -/
theorem elements_write (h : ItemsRead step acc items acc') {fuel : Nat}
    (hfuel : items.length < fuel) (rest : Input) :
    elements step fuel true acc
        (Input.ofText (commaSeparated (writeItems items)) ++ some ']' :: rest)
      = .ok (acc', some ']' :: rest) := by
  cases h with
  | nil =>
    cases fuel with
    | zero => exact absurd hfuel (by simp)
    | succ fuel => rfl
  | @cons _ next _ v items hstarts hstep hitems =>
    cases fuel with
    | zero => exact absurd hfuel (by simp)
    | succ fuel =>
      have hrest := elements_next hitems (Nat.lt_of_succ_lt_succ hfuel) rest
      rw [writeItems, commaSeparated_cons, ofText_append, List.append_assoc, elements,
        nextElement_first hstarts]
      simp only [malformed, bind, Except.bind]
      rw [hstep _ (stops_items items rest)]
      exact hrest

end elements

lemma colon_cons (rest : Input) : colon (some ':' :: rest) = .ok rest := rfl

lemma nextKey_first (key : String) (rest : Input) :
    nextKey true (Input.ofText (writeString key) ++ rest) = .ok (some (key, rest)) := by
  obtain ⟨body, hwrite, hstring⟩ := string_writeString key rest
  have hquote (rest : Input) : nextKey true (some '"' :: rest) = (string rest).map some := rfl
  rw [hwrite, List.cons_append, hquote, hstring]
  rfl

lemma nextKey_next (key : String) (rest : Input) :
    nextKey false (some ',' :: (Input.ofText (writeString key) ++ rest))
      = .ok (some (key, rest)) := by
  obtain ⟨body, hwrite, hstring⟩ := string_writeString key rest
  have hcomma (rest : Input) :
      nextKey false (some ',' :: some '"' :: rest) = (string rest).map some := rfl
  rw [hwrite, List.cons_append, hcomma, hstring]
  rfl

/-- From `acc`, the step of a loop reads the members one after the other, each from behind its key
on, and comes to `acc'`. -/
inductive MembersRead {σ : Type} (step : σ → String → Input → Except Error (σ × Input)) :
    σ → List Member → σ → Prop
  | nil (acc : σ) : MembersRead step acc [] acc
  | cons {acc next acc' : σ} {key : String} {v : Json} {members : List Member}
      (hstep : ∀ rest, Stops rest →
        step acc key (some ':' :: (Input.ofText v.write ++ rest)) = .ok (next, rest))
      (hmembers : MembersRead step next members acc') :
      MembersRead step acc ((key, v) :: members) acc'

section members

variable {σ : Type} {step : σ → String → Input → Except Error (σ × Input)} {acc acc' : σ}
  {fields : List Member}

lemma members_next (h : MembersRead step acc fields acc') {fuel : Nat}
    (hfuel : fields.length < fuel) (rest : Input) :
    members step fuel false acc
        (Input.ofText ((writeMembers fields).flatMap (',' :: ·)) ++ some '\x7d' :: rest)
      = .ok (acc', some '\x7d' :: rest) := by
  induction h generalizing fuel with
  | nil acc =>
    cases fuel with
    | zero => exact absurd hfuel (by simp)
    | succ fuel => rfl
  | @cons acc next acc' key v fields hstep hmembers ih =>
    cases fuel with
    | zero => exact absurd hfuel (by simp)
    | succ fuel =>
      have hrest := ih (Nat.lt_of_succ_lt_succ hfuel)
      rw [writeMembers, List.flatMap_cons, List.cons_append, ofText_cons, ofText_append,
        ofText_append, ofText_cons, List.cons_append, List.append_assoc, List.append_assoc,
        List.cons_append, members, nextKey_next]
      simp only [malformed, bind, Except.bind]
      rw [hstep _ (stops_members fields rest)]
      exact hrest

/-- A loop over written members comes to their closing brace. -/
theorem members_write (h : MembersRead step acc fields acc') {fuel : Nat}
    (hfuel : fields.length < fuel) (rest : Input) :
    members step fuel true acc
        (Input.ofText (commaSeparated (writeMembers fields)) ++ some '\x7d' :: rest)
      = .ok (acc', some '\x7d' :: rest) := by
  cases h with
  | nil =>
    cases fuel with
    | zero => exact absurd hfuel (by simp)
    | succ fuel => rfl
  | @cons _ next _ key v fields hstep hmembers =>
    cases fuel with
    | zero => exact absurd hfuel (by simp)
    | succ fuel =>
      have hrest := members_next hmembers (Nat.lt_of_succ_lt_succ hfuel) rest
      rw [writeMembers, commaSeparated_cons, ofText_append, ofText_append, ofText_cons,
        List.append_assoc, List.append_assoc, List.cons_append, members, nextKey_first]
      simp only [malformed, bind, Except.bind]
      rw [hstep _ (stops_members fields rest)]
      exact hrest

end members

/-! ## The reader, by what it finds -/

/-- How the reader of values reads an item. -/
def itemStep (levels : Nat) (items : List Json) (input : Input) :
    Except Error (List Json × Input) := do
  let (v, rest) ← value levels input
  .ok (v :: items, rest)

/-- How the reader of values reads a member. -/
def memberStep (levels : Nat) (fields : List Member) (key : String) (input : Input) :
    Except Error (List Member × Input) := do
  let input ← malformed (colon input)
  let (v, rest) ← value levels input
  .ok ((key, v) :: fields, rest)

section value

variable {input rest : Input} {levels : Nat}

/-- What is seen first is the value, if it is no list and no object. -/
lemma value_of_scalar {found : Found} (h : glimpse input = .ok (found, rest))
    (hsequence : found ≠ .sequence) (hmap : found ≠ .map) :
    value levels input = .ok (ofFound found, rest) := by
  unfold value
  rw [h]
  cases found with
  | sequence => exact absurd rfl hsequence
  | map => exact absurd rfl hmap
  | _ => rfl

/-- A list is read item by item, one level down. -/
lemma value_of_sequence (h : glimpse input = .ok (.sequence, rest)) :
    value (levels + 1) input = (array (itemStep levels) [] rest >>= fun (items, rest) =>
      .ok (.arr items.reverse, rest)) := by
  rw [value, h]
  rfl

/-- An object is read member by member, one level down. -/
lemma value_of_map (h : glimpse input = .ok (.map, rest)) :
    value (levels + 1) input = (object (memberStep levels) [] rest >>= fun (fields, rest) =>
      .ok (.obj fields.reverse, rest)) := by
  rw [value, h]
  rfl

/-- Without a level left, a list is too deep. -/
lemma value_zero_of_sequence (h : glimpse input = .ok (.sequence, rest)) :
    value 0 input = .error (.malformed .tooDeep) := by
  rw [value, h]
  rfl

/-- Without a level left, an object is too deep. -/
lemma value_zero_of_map (h : glimpse input = .ok (.map, rest)) :
    value 0 input = .error (.malformed .tooDeep) := by
  rw [value, h]
  rfl

/-- A value is read as a scalar, or as an array or object with one level less inside. -/
theorem value_cases {v : Json} (h : value levels input = .ok (v, rest)) :
    (∃ found, glimpse input = .ok (found, rest) ∧ found ≠ .sequence ∧ found ≠ .map ∧
      v = ofFound found) ∨
    (∃ k items start, levels = k + 1 ∧ glimpse input = .ok (.sequence, start) ∧
      array (itemStep k) [] start = .ok (items, rest) ∧ v = .arr items.reverse) ∨
    (∃ k fields start, levels = k + 1 ∧ glimpse input = .ok (.map, start) ∧
      object (memberStep k) [] start = .ok (fields, rest) ∧ v = .obj fields.reverse) := by
  have hvalue := h
  rw [value] at h
  -- what is found first decides which of the three it is
  obtain ⟨⟨found, start⟩, hfound, -⟩ := of_bind h
  have hfound := of_malformed hfound
  by_cases hsequence : found = .sequence
  · subst hsequence
    cases levels with
    | zero => exact absurd hvalue (by simp [value_zero_of_sequence hfound])
    | succ k =>
      rw [value_of_sequence hfound] at hvalue
      obtain ⟨⟨items, rest'⟩, hread, hvalue⟩ := of_bind hvalue
      obtain ⟨rfl, rfl⟩ := Prod.mk.inj (Except.ok.inj hvalue)
      exact .inr (.inl ⟨k, items, start, rfl, hfound, hread, rfl⟩)
  by_cases hmap : found = .map
  · subst hmap
    cases levels with
    | zero => exact absurd hvalue (by simp [value_zero_of_map hfound])
    | succ k =>
      rw [value_of_map hfound] at hvalue
      obtain ⟨⟨fields, rest'⟩, hread, hvalue⟩ := of_bind hvalue
      obtain ⟨rfl, rfl⟩ := Prod.mk.inj (Except.ok.inj hvalue)
      exact .inr (.inr ⟨k, fields, start, rfl, hfound, hread, rfl⟩)
  rw [value_of_scalar hfound hsequence hmap] at hvalue
  obtain ⟨rfl, rfl⟩ := Prod.mk.inj (Except.ok.inj hvalue)
  exact .inl ⟨found, hfound, hsequence, hmap, rfl⟩

end value

/-! ## Values that have been written -/

lemma itemsRead_itemStep {levels : Nat} {items : List Json} (acc : List Json)
    (hstarts : ∀ v ∈ items, Starts v.write)
    (h : ∀ v ∈ items, ∀ rest, Stops rest →
      value levels (Input.ofText v.write ++ rest) = .ok (v, rest)) :
    ItemsRead (itemStep levels) acc items (items.reverse ++ acc) := by
  induction items generalizing acc with
  | nil => exact .nil acc
  | cons v items ih =>
    have hitems := ih (v :: acc) (fun w hw => hstarts w (List.mem_cons_of_mem _ hw))
      fun w hw => h w (List.mem_cons_of_mem _ hw)
    -- items are gathered in front, so the last one comes first
    rw [List.reverse_cons, List.append_assoc]
    refine .cons (hstarts v List.mem_cons_self) (fun rest hrest => ?_) hitems
    rw [itemStep, h v List.mem_cons_self rest hrest]
    rfl

lemma membersRead_memberStep {levels : Nat} {fields : List Member} (acc : List Member)
    (h : ∀ m ∈ fields, ∀ rest, Stops rest →
      value levels (Input.ofText m.2.write ++ rest) = .ok (m.2, rest)) :
    MembersRead (memberStep levels) acc fields (fields.reverse ++ acc) := by
  induction fields generalizing acc with
  | nil => exact .nil acc
  | cons m fields ih =>
    have hfields := ih (m :: acc) fun w hw => h w (List.mem_cons_of_mem _ hw)
    rw [List.reverse_cons, List.append_assoc]
    refine .cons (fun rest hrest => ?_) hfields
    rw [memberStep, colon_cons]
    simp only [malformed, bind, Except.bind]
    rw [h m List.mem_cons_self rest hrest]

lemma length_writeItems (items : List Json) : (writeItems items).length = items.length := by
  induction items with
  | nil => rfl
  | cons v items ih => rw [writeItems, List.length_cons, List.length_cons, ih]

lemma mem_writeItems {items : List Json} {text : List Char} (h : text ∈ writeItems items) :
    ∃ v ∈ items, text = v.write := by
  induction items with
  | nil => exact absurd h (by simp [writeItems])
  | cons v items ih =>
    obtain rfl | h := List.mem_cons.1 h
    · exact ⟨v, List.mem_cons_self, rfl⟩
    · obtain ⟨w, hw, htext⟩ := ih h
      exact ⟨w, List.mem_cons_of_mem _ hw, htext⟩

lemma length_writeMembers (fields : List Member) :
    (writeMembers fields).length = fields.length := by
  induction fields with
  | nil => rfl
  | cons m fields ih => rw [writeMembers, List.length_cons, List.length_cons, ih]

lemma ne_nil_of_mem_writeMembers {fields : List Member} {text : List Char}
    (h : text ∈ writeMembers fields) : text ≠ [] := by
  induction fields with
  | nil => exact absurd h (by simp [writeMembers])
  | cons m fields ih =>
    obtain rfl | h := List.mem_cons.1 h
    · exact List.cons_ne_nil _ _
    · exact ih h

lemma Starts.ne_nil {text : List Char} (h : Starts text) : text ≠ [] := by
  obtain ⟨c, tail, rfl, -⟩ := h
  exact List.cons_ne_nil _ _

/-- The fuel of the loop over an array is enough for what has been written. -/
lemma lt_fuel_of_items {items : List Json} (h : ∀ v ∈ items, Starts v.write) (rest : Input) :
    items.length < (some '[' ::
      (Input.ofText (commaSeparated (writeItems items)) ++ some ']' :: rest)).length + 1 := by
  -- each item takes a character at least, so the text is no shorter than the list
  have hne : ∀ text ∈ writeItems items, text ≠ [] := by
    intro text htext
    obtain ⟨v, hv, rfl⟩ := mem_writeItems htext
    exact (h v hv).ne_nil
  have hle := length_le_commaSeparated hne
  rw [length_writeItems] at hle
  simp only [List.length_cons, List.length_append, Input.ofText, List.length_map]
  omega

lemma lt_fuel_of_members (fields : List Member) (rest : Input) :
    fields.length < (some '\x7b' ::
      (Input.ofText (commaSeparated (writeMembers fields)) ++ some '\x7d' :: rest)).length + 1 := by
  have hne : ∀ text ∈ writeMembers fields, text ≠ [] := fun _ => ne_nil_of_mem_writeMembers
  have hle := length_le_commaSeparated hne
  rw [length_writeMembers] at hle
  simp only [List.length_cons, List.length_append, Input.ofText, List.length_map]
  omega

/-- Scalars are read back. -/
lemma value_writeScalar (levels : Nat) {v : Json} (hdepth : v.depth = 0)
    (hnumbers : ∀ n ∈ v.numbers, n.Exact) {rest : Input} (hrest : Stops rest) :
    value levels (Input.ofText v.write ++ rest) = .ok (v, rest) := by
  cases v with
  | null =>
    have hfound : glimpse (Input.ofText Json.null.write ++ rest) = .ok (.null, rest) := rfl
    exact value_of_scalar hfound (by simp) (by simp)
  | bool b =>
    have hfound : glimpse (Input.ofText (Json.bool b).write ++ rest) = .ok (.bool b, rest) := by
      cases b <;> rfl
    exact value_of_scalar hfound (by simp) (by simp)
  | num n =>
    have hn := hnumbers n (by simp [numbers])
    cases n with
    | int k => exact value_of_scalar (glimpse_writeInt hn hrest) (by simp) (by simp)
    | float x => exact absurd hn id
  | str s => exact value_of_scalar (glimpse_writeString s rest) (by simp) (by simp)
  | arr items => exact absurd hdepth (by simp [depth])
  | obj members => exact absurd hdepth (by simp [depth])

/-- A value that has been written is read, whatever ends it. -/
theorem value_write {levels : Nat} {v : Json} (hdepth : v.depth ≤ levels)
    (hnumbers : ∀ n ∈ v.numbers, n.Exact) {rest : Input} (hrest : Stops rest) :
    value levels (Input.ofText v.write ++ rest) = .ok (v, rest) := by
  -- the reader recurs on the levels that are left, and so does the proof
  induction levels generalizing v rest with
  | zero => exact value_writeScalar 0 (Nat.le_zero.1 hdepth) hnumbers hrest
  | succ levels ih =>
    cases v with
    | arr items =>
      rw [depth, Nat.add_le_add_iff_right, depthItems_le_iff] at hdepth
      have hitem : ∀ v ∈ items, ∀ n ∈ v.numbers, n.Exact := fun v hv n hn =>
        hnumbers n (mem_numbersItems.2 ⟨v, hv, hn⟩)
      -- no item is taken for the bracket that closes the array
      have hstarts : ∀ v ∈ items, Starts v.write := fun v hv => starts_write (hitem v hv)
      have hread := itemsRead_itemStep [] hstarts fun v hv rest hrest =>
        ih (hdepth v hv) (hitem v hv) hrest
      have htext : Input.ofText (Json.arr items).write ++ rest = some '[' ::
          (Input.ofText (commaSeparated (writeItems items)) ++ some ']' :: rest) := by
        simp [write]
      have hloop := elements_write hread (lt_fuel_of_items hstarts rest) rest
      rw [htext, value_of_sequence rfl, array, List.tail_cons, hloop, List.append_nil]
      simp [malformed, endList, skipBlank, isBlank, bind, Except.bind]
    | obj fields =>
      rw [depth, Nat.add_le_add_iff_right, depthMembers_le_iff] at hdepth
      have hread := membersRead_memberStep [] fun m hm rest hrest =>
        ih (hdepth m hm) (fun n hn => hnumbers n (mem_numbersMembers.2 ⟨m, hm, hn⟩)) hrest
      have htext : Input.ofText (Json.obj fields).write ++ rest = some '\x7b' ::
          (Input.ofText (commaSeparated (writeMembers fields)) ++ some '\x7d' :: rest) := by
        simp [write]
      have hloop := members_write hread (lt_fuel_of_members fields rest) rest
      rw [htext, value_of_map rfl, object, List.tail_cons, hloop, List.append_nil]
      simp [malformed, endObject, skipBlank, isBlank, bind, Except.bind]
    | _ => exact value_writeScalar (levels + 1) rfl hnumbers hrest

/-! ## Values that have been read -/

section keep

variable {σ : Type} {P : σ → Prop}

/-- What every step of a loop over elements keeps, the loop keeps. -/
theorem elements_keep {step : σ → Input → Except Error (σ × Input)}
    (hstep : ∀ acc input acc' rest, P acc → step acc input = .ok (acc', rest) → P acc')
    {fuel : Nat} {first : Bool} {acc acc' : σ} {input rest : Input} (hacc : P acc)
    (h : elements step fuel first acc input = .ok (acc', rest)) : P acc' := by
  induction fuel generalizing first acc input with
  | zero => exact absurd h (by simp [elements])
  | succ fuel ih =>
    obtain ⟨next, -, h⟩ := of_bind h
    cases next with
    | none =>
      obtain ⟨rfl, -⟩ := Prod.mk.inj (Except.ok.inj h)
      exact hacc
    | some next =>
      obtain ⟨⟨acc₁, rest₁⟩, hread, h⟩ := of_bind h
      exact ih (hstep acc next acc₁ rest₁ hacc hread) h

/-- What every step of a loop over members keeps, the loop keeps. -/
theorem members_keep {step : σ → String → Input → Except Error (σ × Input)}
    (hstep : ∀ acc key input acc' rest, P acc → step acc key input = .ok (acc', rest) → P acc')
    {fuel : Nat} {first : Bool} {acc acc' : σ} {input rest : Input} (hacc : P acc)
    (h : members step fuel first acc input = .ok (acc', rest)) : P acc' := by
  induction fuel generalizing first acc input with
  | zero => exact absurd h (by simp [members])
  | succ fuel ih =>
    obtain ⟨next, -, h⟩ := of_bind h
    cases next with
    | none =>
      obtain ⟨rfl, -⟩ := Prod.mk.inj (Except.ok.inj h)
      exact hacc
    | some next =>
      obtain ⟨key, next⟩ := next
      obtain ⟨⟨acc₁, rest₁⟩, hread, h⟩ := of_bind h
      exact ih (hstep acc key next acc₁ rest₁ hacc hread) h

end keep

/-- A value that a reader of so many levels may have read. -/
structure Readable (levels : Nat) (v : Json) : Prop where
  depth_le : v.depth ≤ levels
  held : ∀ n ∈ v.numbers, n.Held

/-- Scalars are readable. -/
lemma readable_of_scalar (levels : Nat) {found : Found} {input rest : Input}
    (h : glimpse input = .ok (found, rest)) (hsequence : found ≠ .sequence) (hmap : found ≠ .map) :
    Readable levels (ofFound found) := by
  have hnumber : ∀ n : Number, n.Held → Readable levels (ofFound n.found) := by
    intro n hn
    cases n <;> exact ⟨Nat.zero_le _, by simpa [ofFound, Number.found, numbers] using hn⟩
  have hfound := glimpsed h
  generalize skipBlank input = token at hfound
  cases hfound with
  | negative h => exact hnumber _ (held_of_number h)
  | natural h => exact hnumber _ (held_of_number h)
  | sequence => exact absurd rfl hsequence
  | map => exact absurd rfl hmap
  | _ => exact ⟨Nat.zero_le _, by simp [ofFound, numbers]⟩

/-- A list is readable when its items are, one level up. -/
lemma Readable.arr {levels : Nat} {items : List Json} (h : ∀ v ∈ items, Readable levels v) :
    Readable (levels + 1) (.arr items) := by
  refine ⟨Nat.add_le_add_right (depthItems_le_iff.2 fun v hv => (h v hv).depth_le) 1, ?_⟩
  intro n hn
  obtain ⟨v, hv, hn⟩ := mem_numbersItems.1 hn
  exact (h v hv).held n hn

/-- An object is readable when its values are, one level up. -/
lemma Readable.obj {levels : Nat} {fields : List Member}
    (h : ∀ m ∈ fields, Readable levels m.2) : Readable (levels + 1) (.obj fields) := by
  refine ⟨Nat.add_le_add_right (depthMembers_le_iff.2 fun m hm => (h m hm).depth_le) 1, ?_⟩
  intro n hn
  obtain ⟨m, hm, hn⟩ := mem_numbersMembers.1 hn
  exact (h m hm).held n hn

lemma readable_of_itemStep {levels : Nat} {items items' : List Json} {input rest : Input}
    (ih : ∀ {v : Json} {input rest : Input}, value levels input = .ok (v, rest) → Readable levels v)
    (hitems : ∀ v ∈ items, Readable levels v)
    (h : itemStep levels items input = .ok (items', rest)) : ∀ v ∈ items', Readable levels v := by
  obtain ⟨⟨v, rest'⟩, hv, h⟩ := of_bind h
  obtain ⟨rfl, -⟩ := Prod.mk.inj (Except.ok.inj h)
  exact List.forall_mem_cons.2 ⟨ih hv, hitems⟩

lemma readable_of_memberStep {levels : Nat} {fields fields' : List Member} {key : String}
    {input rest : Input}
    (ih : ∀ {v : Json} {input rest : Input}, value levels input = .ok (v, rest) → Readable levels v)
    (hfields : ∀ m ∈ fields, Readable levels m.2)
    (h : memberStep levels fields key input = .ok (fields', rest)) :
    ∀ m ∈ fields', Readable levels m.2 := by
  obtain ⟨input', -, h⟩ := of_bind h
  obtain ⟨⟨v, rest'⟩, hv, h⟩ := of_bind h
  obtain ⟨rfl, -⟩ := Prod.mk.inj (Except.ok.inj h)
  exact List.forall_mem_cons.2 ⟨ih hv, hfields⟩

/-- Every value that is read nests no deeper than admitted, and its numbers are held. -/
theorem readable_of_value {levels : Nat} {v : Json} {input rest : Input}
    (h : value levels input = .ok (v, rest)) : Readable levels v := by
  -- over the levels that are left for lists and objects
  induction levels generalizing v input rest with
  | zero =>
    obtain ⟨found, hfound, hsequence, hmap, rfl⟩ | ⟨k, -, -, hk, -⟩ | ⟨k, -, -, hk, -⟩ :=
      value_cases h
    · exact readable_of_scalar 0 hfound hsequence hmap
    · exact absurd hk (by simp)
    · exact absurd hk (by simp)
  | succ levels ih =>
    obtain ⟨found, hfound, hsequence, hmap, rfl⟩ | ⟨k, items, rest', hk, -, hread, rfl⟩ |
      ⟨k, fields, rest', hk, -, hread, rfl⟩ := value_cases h
    · exact readable_of_scalar _ hfound hsequence hmap
    · obtain rfl := Nat.succ.inj hk
      obtain ⟨⟨acc, rest₁⟩, hloop, hread⟩ := of_bind hread
      obtain ⟨rest₂, -, hread⟩ := of_bind hread
      obtain ⟨rfl, -⟩ := Prod.mk.inj (Except.ok.inj hread)
      have hall : ∀ v ∈ acc, Readable levels v :=
        elements_keep (fun _ _ _ _ hacc => readable_of_itemStep ih hacc)
          (fun v hv => absurd hv (by simp)) hloop
      exact Readable.arr fun v hv => hall v (List.mem_reverse.1 hv)
    · obtain rfl := Nat.succ.inj hk
      obtain ⟨⟨acc, rest₁⟩, hloop, hread⟩ := of_bind hread
      obtain ⟨rest₂, -, hread⟩ := of_bind hread
      obtain ⟨rfl, -⟩ := Prod.mk.inj (Except.ok.inj hread)
      have hall : ∀ m ∈ acc, Readable levels m.2 :=
        members_keep (fun _ _ _ _ _ hacc => readable_of_memberStep ih hacc)
          (fun m hm => absurd hm (by simp)) hloop
      exact Readable.obj fun m hm => hall m (List.mem_reverse.1 hm)

end Switchboard.Json
