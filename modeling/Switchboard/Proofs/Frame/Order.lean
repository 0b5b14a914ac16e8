import Switchboard.Proofs.Json.Syntax
import Switchboard.Proofs.Frame.RoundTrip

/-!
# The members of a frame in any order

What a line decodes to is decided by the names and values of its members, not by the blanks between
its tokens, nor by the order of the members, nor by members that the frame does not know.

* `parse_spelled` decodes a line from its members alone.
* `ofObject_perm` decodes the members in another order, with unknown ones among them.
-/

namespace Switchboard.Frame

open Json (Clause Member)

/-! ## Members -/

/-- Takes a member into an envelope. -/
def Envelope.add (e : Envelope) (m : Member) : Except Json.Error Envelope :=
  if m.1 = "type" then
    if e.kind.isSome then .error (.mismatch (.duplicateField "type"))
    else (Json.mismatched (kindOf m.2.found)).map fun kind => { e with kind := some kind }
  else .ok { e with members := m :: e.members }

/-- The frame of an object that has the given members. -/
def ofObject (ms : List Member) : Except Json.Error Frame := do
  let e ← ms.foldlM Envelope.add {}
  match e.kind with
  | none => .error (.mismatch (.missingField "type"))
  | some kind => Json.mismatched (ofMembers kind e.members.reverse)

/-- A clause that may stand in a frame: its value nests within what the reader admits there. -/
structure Admitted (c : Clause) : Prop where
  quoted : Json.Quoted c.name c.key
  spells : Json.Spells c.value c.spelling
  depth_le : c.value.depth ≤ fieldDepth

/-- A line that is an object of the given clauses, with any blanks between its tokens. -/
structure Spelled (clauses : List Clause) (line : String) : Prop where
  admitted : ∀ c ∈ clauses, Admitted c
  spaced : Json.Spaced (['\x7b'] :: (Json.parted true (clauses.map Clause.tokens) ++ [['\x7d']]))
    line.toList

/-- The kind of a frame is decided by the value that its type has. -/
lemma scalar_kindOf {levels : Nat} {v : Json} {input rest : Json.Input}
    (h : Json.value levels input = .ok (v, rest)) :
    Json.scalar kindOf input = (Json.mismatched (kindOf v.found)).map (·, rest) := by
  obtain ⟨found, hfound, hsequence, hmap, rfl⟩ | ⟨k, acc, start, -, hfound, -, rfl⟩ |
    ⟨k, acc, start, -, hfound, -, rfl⟩ := Json.value_cases h
  · have hscalar : (Json.ofFound found).found = found := by
      cases found with
      | sequence => exact absurd rfl hsequence
      | map => exact absurd rfl hmap
      | _ => rfl
    rw [Json.scalar, hfound, hscalar]
    cases hkind : kindOf found <;>
      simp [Json.malformed, Json.mismatched, bind, Except.bind, Except.map, hkind]
  · rw [Json.scalar, hfound]
    rfl
  · rw [Json.scalar, hfound]
    rfl

/-- A member whose value is admitted is read. -/
lemma stepReads_readMember {c : Clause} (h : Admitted c) :
    Json.StepReads readMember Envelope.add c := by
  intro e more input hmore hrow
  obtain ⟨behind, hcolon, hrow⟩ := Json.colon_of_row hrow
  obtain ⟨rest, hrest, hvalue⟩ := Json.value_of_row h.spells h.depth_le hmore hrow
  refine ⟨rest, hrest, ?_⟩
  unfold readMember Envelope.add Clause.member
  dsimp only
  split
  · split
    · rfl
    · rw [hcolon]
      simp only [Json.malformed, bind, Except.bind, scalar_kindOf hvalue]
      cases Json.mismatched (kindOf c.value.found) <;> rfl
  · rw [hcolon]
    simp only [Json.malformed, bind, Except.bind, hvalue]
    rfl

/-- A line is decoded from its members alone. -/
theorem parse_spelled {clauses : List Clause} {line : String} (h : Spelled clauses line) :
    Frame.parse line = ofObject (clauses.map Clause.member) := by
  have hrow := Json.row_ofText_iff.2 h.spaced
  obtain ⟨behind, hskip, hrow⟩ := Json.of_row_mark (by decide) hrow
  have hfound : Json.glimpse (Json.Input.ofText line.toList)
      = .ok (.map, some '\x7b' :: behind) := by
    rw [Json.glimpse, hskip]
    rfl
  have hkey : ∀ c ∈ clauses, Json.Quoted c.name c.key := fun c hc => (h.admitted c hc).quoted
  -- the loop over the members is a fold over the clauses
  obtain ⟨rest, hclose, hloop⟩ := Json.members_row hkey
    (fun c hc => stepReads_readMember (h.admitted c hc)) (Json.lt_fuel_of_clauses hkey hrow) {} hrow
  obtain ⟨rest', hend, hrest⟩ := Json.endObject_of_row hclose
  have hfinish := Json.finish_eq_ok_iff.2 (Json.of_row_nil hrest)
  rw [Frame.parse, Json.whole, readFrame, hfound, ofObject]
  simp only [Json.malformed, bind, Except.bind, List.tail_cons, hloop]
  cases (clauses.map Clause.member).foldlM Envelope.add {} with
  | error e => rfl
  | ok e =>
    obtain ⟨kind, members⟩ := e
    cases kind with
    | none => rfl
    | some kind =>
      simp only [Except.map, hend]
      cases Json.mismatched (ofMembers kind members.reverse) with
      | error e => rfl
      | ok f => simp only [hfinish]

/-! ## The type among the members -/

/-- The members that give the type. -/
def types (ms : List Member) : List Member := ms.filter (·.1 = "type")

/-- The members that give the fields. -/
def fields (ms : List Member) : List Member := ms.filter (·.1 ≠ "type")

/-- An envelope gets its kind from the one member that gives the type, and keeps all others. -/
lemma foldlM_add_iff {ms members members' : List Member} {k : Option FrameKind}
    {kind : FrameKind} :
    ms.foldlM Envelope.add ⟨k, members⟩ = .ok ⟨some kind, members'⟩ ↔
      members' = (fields ms).reverse ++ members ∧
        (k = some kind ∧ types ms = [] ∨
          k = none ∧ ∃ m, types ms = [m] ∧ kindOf m.2.found = .ok kind) := by
  induction ms generalizing k members with
  | nil =>
    rw [types, fields, List.filter_nil, List.filter_nil, List.reverse_nil, List.nil_append]
    simp only [List.foldlM_nil, pure, Except.pure, Except.ok.injEq, Envelope.mk.injEq]
    simp [and_comm, eq_comm]
  | cons m ms ih =>
    rw [List.foldlM_cons]
    by_cases hm : m.1 = "type"
    · have htypes : types (m :: ms) = m :: types ms := List.filter_cons_of_pos (by simpa using hm)
      have hfields : fields (m :: ms) = fields ms := List.filter_cons_of_neg (by simpa using hm)
      have hone : (∃ m', m :: types ms = [m'] ∧ kindOf m'.2.found = .ok kind) ↔
          types ms = [] ∧ kindOf m.2.found = .ok kind := by
        constructor
        · rintro ⟨m', heq, hkind⟩
          obtain ⟨rfl, hnil⟩ := List.cons.inj heq
          exact ⟨hnil, hkind⟩
        · rintro ⟨hnil, hkind⟩
          exact ⟨m, by rw [hnil], hkind⟩
      rw [htypes, hfields, hone, Envelope.add, if_pos hm]
      cases k with
      -- a second type is refused
      | some k => simp [bind, Except.bind]
      | none =>
        cases hkind : kindOf m.2.found with
        | error e => simp [Json.mismatched, Except.map, bind, Except.bind]
        | ok k =>
          simp only [Json.mismatched, Except.map, bind, Except.bind, Option.isSome_none,
            Bool.false_eq_true, if_false]
          rw [ih]
          simp [and_comm]
    · have htypes : types (m :: ms) = types ms := List.filter_cons_of_neg (by simpa using hm)
      have hfields : fields (m :: ms) = m :: fields ms :=
        List.filter_cons_of_pos (by simpa using hm)
      rw [htypes, hfields, Envelope.add, if_neg hm, List.reverse_cons, List.append_assoc]
      exact ih

/-- An object is a frame when it has one type and the fields of this type. -/
lemma ofObject_eq_ok_iff {ms : List Member} {f : Frame} : ofObject ms = .ok f ↔
    ∃ kind m, types ms = [m] ∧ kindOf m.2.found = .ok kind ∧
      ofMembers kind (fields ms) = .ok f := by
  constructor
  · intro h
    obtain ⟨⟨k, members⟩, hfold, h⟩ := Json.of_bind h
    cases k with
    | none => exact absurd h (by simp)
    | some kind =>
      obtain ⟨rfl, ⟨hk, -⟩ | ⟨-, m, htypes, hkind⟩⟩ := foldlM_add_iff.1 hfold
      · exact absurd hk (by simp)
      · have hframe := Json.of_mismatched h
        rw [List.append_nil, List.reverse_reverse] at hframe
        exact ⟨kind, m, htypes, hkind, hframe⟩
  · rintro ⟨kind, m, htypes, hkind, h⟩
    have hfold : ms.foldlM Envelope.add {} = .ok ⟨some kind, (fields ms).reverse⟩ :=
      foldlM_add_iff.2 ⟨(List.append_nil _).symm, .inr ⟨rfl, m, htypes, hkind⟩⟩
    rw [ofObject, hfold]
    simp only [bind, Except.bind, List.reverse_reverse, h, Json.mismatched]

/-! ## Fields in any order -/

/-- What the value of a field does to the fields read so far. -/
def put (v : Json) : FrameField → Except Mismatch (FrameSlots → FrameSlots)
  | .realm => v.found.asString.map fun x s => { s with realm := some x }
  | .session => v.found.asWord64.map fun x s => { s with session := some x }
  | .message => v.found.asString.map fun x s => { s with message := some x }
  | .request => v.found.asWord64.map fun x s => { s with request := some x }
  | .procedure => v.found.asString.map fun x s => { s with procedure := some x }
  | .addressed => (v.found.asOptional Found.asString).map fun x s => { s with addressed := some x }
  | .args => (asArgs v).map fun x s => { s with args := some x }
  | .kwargs => (asKwArgs v).map fun x s => { s with kwargs := some x }
  | .pattern => v.found.asString.map fun x s => { s with pattern := some x }
  | .mode => (asMode v).map fun x s => { s with mode := some x }
  | .registration => v.found.asWord64.map fun x s => { s with registration := some x }

lemma read_eq (field : FrameField) (s : FrameSlots) (v : Json) :
    field.read s v = (put v field).map (· s) := by
  have hmap {α : Type} (x : Except Mismatch α) (g : α → FrameSlots → FrameSlots) :
      (x.map g).map (· s) = x.map (g · s) := by
    cases x <;> rfl
  cases field <;> simp only [FrameField.read, put, hmap]

/-- Reading a field makes this field read and no other. -/
lemma isRead_put {field other : FrameField} {v : Json} {u : FrameSlots → FrameSlots}
    (h : put v field = .ok u) (s : FrameSlots) :
    other.isRead (u s) = (decide (other = field) || other.isRead s) := by
  cases field <;> obtain ⟨x, -, rfl⟩ := Json.of_map h <;> cases other <;> rfl

/-- Different fields are read into different places. -/
lemma put_comm {field other : FrameField} {v w : Json} {u u' : FrameSlots → FrameSlots}
    (h : put v field = .ok u) (h' : put w other = .ok u')
    (hne : field ≠ other) (s : FrameSlots) : u' (u s) = u (u' s) := by
  cases field <;> obtain ⟨x, -, rfl⟩ := Json.of_map h <;> cases other <;>
    first
    | exact absurd rfl hne
    | (obtain ⟨y, -, rfl⟩ := Json.of_map h'; rfl)

section fields

variable {kind : FrameKind} {s s₁ s₂ : FrameSlots} {m m' : Member} {f : Frame}

/-- A member that a kind of frame does not know changes nothing. -/
lemma assignMember_unknown (h : ∀ field ∈ kind.fields, field.name ≠ m.1) (s : FrameSlots) :
    assignMember kind s m = .ok s := by
  have hnone : kind.fields.find? (·.name == m.1) = none :=
    List.find?_eq_none.2 fun field hfield => by simpa using h field hfield
  rw [assignMember, hnone]

/-- A member that a kind of frame knows is put into a place that was free. -/
lemma assignMember_known {field : FrameField}
    (hfield : kind.fields.find? (·.name == m.1) = some field) :
    assignMember kind s m = .ok s₁ ↔
      field.isRead s = false ∧ ∃ u, put m.2 field = .ok u ∧ s₁ = u s := by
  rw [assignMember, hfield]
  cases hread : field.isRead s with
  | true => simp [hread]
  | false =>
    simp only [hread, read_eq]
    constructor
    · intro h
      obtain ⟨u, hu, rfl⟩ := Json.of_map h
      exact ⟨trivial, u, hu, rfl⟩
    · rintro ⟨-, u, hu, rfl⟩
      rw [hu]
      rfl

/-- Two members may change places. -/
lemma assignMember_comm (h : assignMember kind s m = .ok s₁)
    (h' : assignMember kind s₁ m' = .ok s₂) :
    ∃ t, assignMember kind s m' = .ok t ∧ assignMember kind t m = .ok s₂ := by
  cases hfield : kind.fields.find? (·.name == m.1) with
  | none =>
    have hskip (t : FrameSlots) : assignMember kind t m = .ok t := by rw [assignMember, hfield]
    rw [hskip s] at h
    obtain rfl := Except.ok.inj h
    exact ⟨s₂, h', hskip s₂⟩
  | some field =>
    cases hother : kind.fields.find? (·.name == m'.1) with
    | none =>
      have hskip (t : FrameSlots) : assignMember kind t m' = .ok t := by rw [assignMember, hother]
      rw [hskip s₁] at h'
      obtain rfl := Except.ok.inj h'
      exact ⟨s, hskip s, h⟩
    | some other =>
      obtain ⟨hfree, u, hu, rfl⟩ := (assignMember_known hfield).1 h
      obtain ⟨hfree', u', hu', rfl⟩ := (assignMember_known hother).1 h'
      -- the place of the first member has been taken, so the second one has another
      rw [isRead_put hu, Bool.or_eq_false_iff, decide_eq_false_iff_not] at hfree'
      have hne : field ≠ other := fun heq => hfree'.1 heq.symm
      refine ⟨u' s, (assignMember_known hother).2 ⟨hfree'.2, u', hu', rfl⟩,
        (assignMember_known hfield).2 ⟨?_, u, hu, put_comm hu hu' hne s⟩⟩
      rw [isRead_put hu', hfree, Bool.or_false, decide_eq_false_iff_not]
      exact hne

end fields

/-- A loop whose steps may change places comes to the same end in any order. -/
lemma foldlM_perm {σ β ε : Type} (step : σ → β → Except ε σ)
    (hcomm : ∀ s s₁ s₂ b b', step s b = .ok s₁ → step s₁ b' = .ok s₂ →
      ∃ t, step s b' = .ok t ∧ step t b = .ok s₂)
    {l l' : List β} (hperm : l.Perm l') {s s' : σ} (h : l.foldlM step s = .ok s') :
    l'.foldlM step s = .ok s' := by
  induction hperm generalizing s with
  | nil => exact h
  | cons b _ ih =>
    obtain ⟨t, ht, h⟩ := Json.of_bind h
    rw [List.foldlM_cons, ht]
    exact ih h
  | swap b b' l =>
    obtain ⟨t, ht, h⟩ := Json.of_bind h
    obtain ⟨t', ht', h⟩ := Json.of_bind h
    obtain ⟨r, hr, hr'⟩ := hcomm _ _ _ _ _ ht ht'
    rw [List.foldlM_cons, hr]
    simp only [bind, Except.bind, List.foldlM_cons, hr']
    exact h
  | trans _ _ ih ih' => exact ih' (ih h)

/-- The order of the fields does not matter. -/
lemma ofMembers_perm {kind : FrameKind} {ms ms' : List Member} {f : Frame} (hperm : ms.Perm ms')
    (h : ofMembers kind ms = .ok f) : ofMembers kind ms' = .ok f := by
  obtain ⟨s, hs, h⟩ := Json.of_bind h
  have hs' : ms'.foldlM (assignMember kind) {} = .ok s :=
    foldlM_perm (assignMember kind) (fun _ _ _ _ _ => assignMember_comm) hperm hs
  rw [ofMembers, hs']
  exact h

/-- Members that are not fields of the kind change nothing. -/
lemma ofMembers_append {kind : FrameKind} {ms more : List Member} {f : Frame}
    (hmore : ∀ m ∈ more, ∀ field ∈ kind.fields, field.name ≠ m.1)
    (h : ofMembers kind ms = .ok f) : ofMembers kind (ms ++ more) = .ok f := by
  obtain ⟨s, hs, h⟩ := Json.of_bind h
  have hskip : more.foldlM (assignMember kind) s = .ok s := by
    clear h
    induction more with
    | nil => rfl
    | cons m more ih =>
      rw [List.foldlM_cons, assignMember_unknown (hmore m List.mem_cons_self)]
      exact ih fun m' hm' => hmore m' (List.mem_cons_of_mem _ hm')
  rw [ofMembers, List.foldlM_append, hs]
  simp only [bind, Except.bind, hskip]
  exact h

/-- A frame is of the kind that it was read for. -/
lemma kind_of_ofMembers {kind : FrameKind} {ms : List Member} {f : Frame}
    (h : ofMembers kind ms = .ok f) : f.kind = kind := by
  obtain ⟨s, -, h⟩ := Json.of_bind h
  cases kind with
  | hello | welcome | abort | result | unregistered | yield =>
    obtain ⟨x, -, h⟩ := Json.of_bind h
    rw [← Except.ok.inj h]
    rfl
  | call | error | registered | unregister | invocation =>
    obtain ⟨x, -, h⟩ := Json.of_bind h
    obtain ⟨y, -, h⟩ := Json.of_bind h
    rw [← Except.ok.inj h]
    rfl
  | register =>
    obtain ⟨x, -, h⟩ := Json.of_bind h
    obtain ⟨y, -, h⟩ := Json.of_bind h
    obtain ⟨z, -, h⟩ := Json.of_bind h
    rw [← Except.ok.inj h]
    rfl

/-- Members that are in another order, with unknown ones among them, make the same frame. -/
theorem ofObject_perm {ms more ms' : List Member} {f : Frame}
    (hmore : ∀ m ∈ more, m.1 ≠ "type" ∧ ∀ field ∈ f.kind.fields, field.name ≠ m.1)
    (hperm : ms'.Perm (ms ++ more)) (h : ofObject ms = .ok f) : ofObject ms' = .ok f := by
  obtain ⟨kind, m, htypes, hkind, h⟩ := ofObject_eq_ok_iff.1 h
  rw [kind_of_ofMembers h] at hmore
  have htypes' : types (ms ++ more) = [m] := by
    have hnone : types more = [] :=
      List.filter_eq_nil_iff.2 fun m hm => by simpa using (hmore m hm).1
    rw [types, List.filter_append, ← types, ← types, hnone, htypes, List.append_nil]
  have hfields : fields (ms ++ more) = fields ms ++ more := by
    have hall : fields more = more :=
      List.filter_eq_self.2 fun m hm => by simpa using (hmore m hm).1
    rw [fields, List.filter_append, ← fields, ← fields, hall]
  have hone : types ms' = [m] := List.perm_singleton.1 (htypes' ▸ hperm.filter _)
  have hframe := ofMembers_append (fun m hm => (hmore m hm).2) h
  rw [← hfields] at hframe
  exact ofObject_eq_ok_iff.2 ⟨kind, m, hone, hkind, ofMembers_perm (hperm.filter _).symm hframe⟩

/-! ## Lines -/

/-- The clauses of an object that is decoded may be admitted, each as it is written. -/
lemma spelled_of_parse {line : String} {ms : List Member}
    (h : Json.parse line = .ok (.obj ms)) :
    ∃ clauses, Spelled clauses line ∧ clauses.map Clause.member = ms := by
  obtain ⟨hdepth, tokens, hspells, hspaced⟩ := Json.parse_eq_ok_iff.1 h
  cases hspells with
  | @obj clauses hkey hvalues =>
    have hle : Json.depthMembers (clauses.map Clause.member) + 1 ≤ fieldDepth + 1 := hdepth
    rw [Nat.add_le_add_iff_right, Json.depthMembers_le_iff] at hle
    exact ⟨clauses, ⟨fun c hc => ⟨hkey c hc, hvalues c hc, hle c.member (List.mem_map_of_mem hc)⟩,
      hspaced⟩, rfl⟩

/-- Every text that is read as a value where a field stands may be the value of a clause. -/
lemma admitted_of_value {name : String} {key text : List Char} {v : Json} {rest : Json.Input}
    (hkey : Json.Quoted name key)
    (h : Json.value fieldDepth (Json.Input.ofText text) = .ok (v, rest))
    (hrest : Json.skipBlank rest = []) :
    ∃ c : Clause, c.name = name ∧ c.key = key ∧ c.value = v ∧ Admitted c ∧
      Json.Spaced c.spelling text := by
  obtain ⟨hdepth, tokens, hspells, hrow⟩ := Json.value_eq_ok_iff.1 ⟨rest, h, hrest⟩
  exact ⟨⟨name, key, v, tokens⟩, rfl, rfl, rfl, ⟨hkey, hspells, hdepth⟩,
    Json.row_ofText_iff.1 hrow⟩

/-- A line that is an object and is decoded to a frame is written as clauses, one for each member.
Every text that is read as a value where a field stands can be the value of a further clause. Every
line that is written as the same clauses, in any order, with any clauses among them whose names are
neither the type nor those of fields of the frame, and with any blanks between the tokens, is
decoded to the same frame. -/
theorem parse_of_perm {line : String} {ms : List Member} {f : Frame}
    (hobject : Json.parse line = .ok (.obj ms)) (h : Frame.parse line = .ok f) :
    (∃ clauses, Spelled clauses line ∧ clauses.map Clause.member = ms) ∧
    (∀ name key text v rest, Json.Quoted name key →
      Json.value fieldDepth (Json.Input.ofText text) = .ok (v, rest) → Json.skipBlank rest = [] →
      ∃ c : Clause, c.name = name ∧ c.key = key ∧ c.value = v ∧ Admitted c ∧
        Json.Spaced c.spelling text) ∧
    ∀ clauses more clauses' line', Spelled clauses line →
      (∀ c ∈ more, c.name ≠ "type" ∧ ∀ field ∈ f.kind.fields, field.name ≠ c.name) →
      clauses'.Perm (clauses ++ more) → Spelled clauses' line' → Frame.parse line' = .ok f := by
  refine ⟨spelled_of_parse hobject, fun _ _ _ _ _ => admitted_of_value, ?_⟩
  intro clauses more clauses' line' hspelled hmore hperm hspelled'
  rw [parse_spelled hspelled] at h
  rw [parse_spelled hspelled']
  refine ofObject_perm ?_ (List.map_append ▸ hperm.map Clause.member) h
  intro m hm
  obtain ⟨c, hc, rfl⟩ := List.mem_map.1 hm
  exact hmore c hc

/-- The type of a yield. -/
def yieldClause : Clause where
  name := "type"
  key := ['"', 't', 'y', 'p', 'e', '"']
  value := .str "yield"
  spelling := [['"', 'y', 'i', 'e', 'l', 'd', '"']]

/-- A request. -/
def requestClause : Clause where
  name := "request"
  key := ['"', 'r', 'e', 'q', 'u', 'e', 's', 't', '"']
  value := .num (.int 7)
  spelling := [['7']]

/-- Arguments that are a float and an empty object. -/
def argsClause : Clause where
  name := "args"
  key := ['"', 'a', 'r', 'g', 's', '"']
  value := .arr [.num (.float (.finite false 6755399441055744 1022)), .obj []]
  spelling := [['['], ['1', '.', '5'], [','], ['\x7b'], ['\x7d'], [']']]

/-- A member that no frame knows. -/
def noteClause : Clause where
  name := "note"
  key := ['"', 'n', 'o', 't', 'e', '"']
  value := .null
  spelling := [['n', 'u', 'l', 'l']]

lemma admitted_yieldClause : Admitted yieldClause :=
  ⟨Json.quoted_of_string rfl, .str (Json.quoted_of_string rfl), by decide⟩

lemma admitted_requestClause : Admitted requestClause :=
  ⟨Json.quoted_of_string rfl, .num (.natural rfl), by decide⟩

lemma admitted_noteClause : Admitted noteClause :=
  ⟨Json.quoted_of_string rfl, .null, by decide⟩

lemma admitted_argsClause : Admitted argsClause := by
  have hfloat : Json.Spells (.num (.float (.finite false 6755399441055744 1022)))
      [['1', '.', '5']] := .num (.natural (Json.ok_of_toOption (by decide +kernel)))
  have hempty : Json.Spells (.obj []) [['\x7b'], ['\x7d']] :=
    @Json.Spells.obj [] (by simp) (by simp)
  have hitems := @Json.Spells.arr [(_, _), (_, _)]
    (List.forall_mem_cons.2 ⟨hfloat, List.forall_mem_singleton.2 hempty⟩)
  exact ⟨Json.quoted_of_string rfl, hitems, by decide⟩

/-- A yield without keyword arguments. -/
def inOrder : String := "\x7b\"type\":\"yield\",\"request\":7,\"args\":[1.5,\x7b\x7d]\x7d"

/-- The same members the other way round, with a note in front and with blanks. -/
def turnedRound : String :=
  " \x7b\"note\":null ,\n\"args\" : [ 1.5,\x7b \x7d],\"request\":7,\t\"type\":\"yield\" \x7d\n"

lemma spelled_inOrder : Spelled [yieldClause, requestClause, argsClause] inOrder :=
  ⟨by simp [admitted_yieldClause, admitted_requestClause, admitted_argsClause],
    Json.spaced_of_isSpaced (by decide +kernel)⟩

lemma spelled_turnedRound :
    Spelled [noteClause, argsClause, requestClause, yieldClause] turnedRound :=
  ⟨by simp [admitted_yieldClause, admitted_requestClause, admitted_argsClause, admitted_noteClause],
    Json.spaced_of_isSpaced (by decide +kernel)⟩

/-- The yield that both lines are decoded to. -/
def yielded : Frame :=
  .yield 7 [.num (.float (.finite false 6755399441055744 1022)), .obj []] []

/-- A frame is read the same with its tag last and a note in front. -/
theorem parse_of_perm_of_turnedRound :
    Json.parse inOrder = .ok (.obj ([yieldClause, requestClause, argsClause].map Clause.member)) ∧
    Frame.parse inOrder = .ok yielded ∧
    (∀ c ∈ [noteClause], c.name ≠ "type" ∧ ∀ field ∈ yielded.kind.fields, field.name ≠ c.name) ∧
    Spelled [yieldClause, requestClause, argsClause] inOrder ∧
    Spelled [noteClause, argsClause, requestClause, yieldClause] turnedRound ∧
    Frame.parse turnedRound = .ok yielded := by
  have hobject : Json.parse inOrder
      = .ok (.obj ([yieldClause, requestClause, argsClause].map Clause.member)) :=
    Json.ok_of_toOption (by decide +kernel)
  have h : Frame.parse inOrder = .ok yielded := Json.ok_of_toOption (by decide +kernel)
  have hmore : ∀ c ∈ [noteClause],
      c.name ≠ "type" ∧ ∀ field ∈ yielded.kind.fields, field.name ≠ c.name := by decide
  have hperm := List.reverse_perm [yieldClause, requestClause, argsClause, noteClause]
  exact ⟨hobject, h, hmore, spelled_inOrder, spelled_turnedRound,
    (parse_of_perm hobject h).2.2 _ _ _ _ spelled_inOrder hmore hperm spelled_turnedRound⟩

end Switchboard.Frame
