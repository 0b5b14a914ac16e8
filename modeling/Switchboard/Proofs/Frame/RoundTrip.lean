import Switchboard.Frame.Reader
import Switchboard.Proofs.Json.Normal

/-!
# Frames as they are written and read

* `parse_text` reads a frame without floats back from its text, at any nesting that the reader
  admits.
* `kept_of_readFrame` says what is true of the fields of every frame that is read, be they named or
  listed: they nest within what the reader admits, and the arguments are normal.

Together they make the text of a frame its one canonical spelling: `text_round_trip`.
-/

namespace Switchboard.Frame

open Json (Number)

/-- A frame as a line without its line feed. -/
def text (f : Frame) : String := f.toJson.render

/-! ## Fields that have been written -/

lemma asWord64_word (n : UInt64) : (word n).found.asWord64 = .ok n := by
  have hn : (n.toNat : Int).toNat = n.toNat := rfl
  have hlt : n.toNat < UInt64.size := n.toNat_lt
  have hround : UInt64.ofNat n.toNat = n := UInt64.ofNat_toNat
  change (Found.asNatural UInt64.size .word64 (.int n.toNat)).map UInt64.ofNat = _
  rw [Found.asNatural, if_pos ⟨by omega, by omega⟩, hn, Except.map, hround]

lemma asString_str (s : String) : (Json.str s).found.asString = .ok s := rfl

lemma asArgs_arr {args : Args} (h : Json.AreNormal args) : asArgs (.arr args) = .ok args := by
  have hnormal : (Json.arr args).normalize = .arr args := Json.normalize_of_isNormal h
  rw [asArgs, hnormal]

lemma asKwArgs_obj {kwargs : KwArgs} (hkeys : Json.KeysAscend kwargs)
    (h : Json.AreNormalMembers kwargs) : asKwArgs (.obj kwargs) = .ok kwargs := by
  have hnormal : (Json.obj kwargs).normalize = .obj kwargs := Json.normalize_of_isNormal ⟨hkeys, h⟩
  rw [asKwArgs, hnormal]

lemma asMode_name (mode : MatchMode) : asMode (.str mode.name) = .ok mode := by
  cases mode <;> rfl

lemma asOptional_elim (procedure : Option String) :
    (procedure.elim Json.null Json.str).found.asOptional Found.asString = .ok procedure := by
  cases procedure <;> rfl

lemma ofName?_name (kind : FrameKind) : FrameKind.ofName? kind.name = some kind := by
  cases kind <;> decide

/-- The members of a frame are decoded to the frame, if its arguments are normal. -/
lemma ofMembers_members {f : Frame} (h : Json.AreNormalMembers f.members) :
    ofMembers f.kind f.members = .ok f := by
  -- each kind assigns its fields one after the other and is built from them
  cases f
  all_goals
    simp only [members, Json.AreNormalMembers, Json.IsNormal, true_and, and_true] at h
    simp [ofMembers, kind, members, assignMember, FrameKind.fields, FrameField.name,
      FrameField.isRead, FrameField.read, asString_str, asWord64_word, asMode_name, asOptional_elim,
      asArgs_arr, asKwArgs_obj, Except.map, bind, Except.bind, build, need, pure,
      Except.pure, *]

/-! ## Frames that have been written -/

/-- The members of a frame behind its type nest one level less than the frame. -/
lemma depth_le_of_members {f : Frame} (h : f.toJson.depth ≤ Json.maxDepth) :
    ∀ m ∈ f.members, m.2.depth ≤ fieldDepth := by
  have hle : Json.depthMembers (("type", .str f.kind.name) :: f.members) + 1 ≤ fieldDepth + 1 := h
  rw [Nat.add_le_add_iff_right, Json.depthMembers_le_iff] at hle
  exact fun m hm => hle m (List.mem_cons_of_mem _ hm)

/-- No field of a frame is called like its tag. -/
lemma key_ne_type {f : Frame} : ∀ m ∈ f.members, m.1 ≠ "type" := by
  cases f <;> simp [members]

/-- Members that have been written are collected. -/
lemma membersRead_readMember {fields : List Json.Member} (e : Envelope)
    (hkey : ∀ m ∈ fields, m.1 ≠ "type") (hdepth : ∀ m ∈ fields, m.2.depth ≤ fieldDepth)
    (hnumbers : ∀ m ∈ fields, ∀ n ∈ m.2.numbers, n.Exact) :
    Json.MembersRead readMember e fields { e with members := fields.reverse ++ e.members } := by
  induction fields generalizing e with
  | nil => exact .nil e
  | cons m fields ih =>
    have hfields := ih { e with members := m :: e.members }
      (fun w hw => hkey w (List.mem_cons_of_mem _ hw))
      (fun w hw => hdepth w (List.mem_cons_of_mem _ hw))
      fun w hw => hnumbers w (List.mem_cons_of_mem _ hw)
    rw [List.reverse_cons, List.append_assoc]
    refine .cons (fun rest hrest => ?_) hfields
    have hvalue := Json.value_write (hdepth m List.mem_cons_self) (hnumbers m List.mem_cons_self)
      hrest
    rw [readMember, if_neg (hkey m List.mem_cons_self), Json.colon_cons]
    simp only [Json.malformed, bind, Except.bind, hvalue]

/-- The type that has been written is recognized. -/
lemma readMember_type (kind : FrameKind) (rest : Json.Input) :
    readMember {} "type" (some ':' :: (Json.Input.ofText (Json.str kind.name).write ++ rest))
      = .ok ({ kind := some kind }, rest) := by
  have hfound := Json.glimpse_writeString kind.name rest
  have hkind : kindOf (.str kind.name) = .ok kind := by
    rw [kindOf, ofName?_name]
  rw [readMember, if_pos rfl, Json.colon_cons, Json.write]
  simp [Json.malformed, Json.mismatched, Json.scalar, bind, Except.bind, hfound, hkind]

/-- A frame whose values are normal is read back from what is written. -/
lemma readFrame_write {f : Frame} (hnormal : Json.AreNormalMembers f.members)
    (hdepth : f.toJson.depth ≤ Json.maxDepth) (hnumbers : ∀ n ∈ f.toJson.numbers, n.Exact)
    (rest : Json.Input) :
    readFrame (Json.Input.ofText f.toJson.write ++ rest) = .ok (f, rest) := by
  let fields : List Json.Member := ("type", .str f.kind.name) :: f.members
  have hmembers : ∀ m ∈ f.members, ∀ n ∈ m.2.numbers, n.Exact := fun m hm n hn =>
    hnumbers n (Json.mem_numbersMembers.2 ⟨m, List.mem_cons_of_mem _ hm, hn⟩)
  -- the type comes first, and the members behind it are gathered in front of one another
  have hread : Json.MembersRead readMember {} fields ⟨some f.kind, f.members.reverse⟩ := by
    have htail := membersRead_readMember ⟨some f.kind, []⟩ key_ne_type
      (depth_le_of_members hdepth) hmembers
    rw [List.append_nil] at htail
    exact .cons (fun rest _ => readMember_type f.kind rest) htail
  have htext : Json.Input.ofText f.toJson.write ++ rest = some '\x7b' ::
      (Json.Input.ofText (Json.commaSeparated (Json.writeMembers fields))
        ++ some '\x7d' :: rest) := by
    simp [toJson, Json.write, fields]
  have hloop := Json.members_write hread (Json.lt_fuel_of_members fields rest) rest
  have hend : Json.endObject (some '\x7d' :: rest) = .ok rest := rfl
  have hfound (input : Json.Input) :
      Json.glimpse (some '\x7b' :: input) = .ok (.map, some '\x7b' :: input) := rfl
  rw [htext, readFrame, hfound]
  simp only [Json.malformed, bind, Except.bind, List.tail_cons]
  rw [hloop]
  simp only [hend, List.reverse_reverse, ofMembers_members hnormal, Json.mismatched]

/-- A frame whose numbers are whole is read from its own text. -/
theorem parse_text {f : Frame} (hnormal : Json.AreNormalMembers f.members)
    (hdepth : f.toJson.depth ≤ Json.maxDepth) (hnumbers : ∀ n ∈ f.toJson.numbers, n.Exact) :
    Frame.parse f.text = .ok f := by
  have hread := readFrame_write hnormal hdepth hnumbers []
  rw [List.append_nil] at hread
  rw [Frame.parse, Json.whole, text, Json.render, String.toList_ofList, hread]
  rfl

/-! ## Fields that have been read -/

/-- The value of a field as a frame holds it after reading. -/
structure Kept (v : Json) : Prop where
  isNormal : v.IsNormal
  readable : Json.Readable fieldDepth v

/-- The normal form of a readable value is kept. -/
lemma kept_normalize {v : Json} (h : Json.Readable fieldDepth v) : Kept v.normalize :=
  have hv := Json.normalizes v
  ⟨hv.isNormal, Nat.le_trans hv.depth_le h.depth_le, fun n hn => h.held n (hv.numbers n hn)⟩

lemma kept_word (n : UInt64) : Kept (word n) := by
  have hlt : n.toNat < 18446744073709551616 := n.toNat_lt
  refine ⟨trivial, Nat.zero_le _, fun m hm => ?_⟩
  rw [List.mem_singleton.1 hm]
  exact ⟨by omega, by omega⟩

lemma kept_str (s : String) : Kept (.str s) :=
  ⟨trivial, Nat.zero_le _, fun _ hn => absurd hn (by simp [Json.numbers])⟩

lemma kept_elim (procedure : Option String) : Kept (procedure.elim .null .str) := by
  cases procedure with
  | none => exact ⟨trivial, Nat.zero_le _, fun _ hn => absurd hn (by simp [Json.numbers])⟩
  | some s => exact kept_str s

/-- What is true of the arguments among the fields that have been read. -/
structure SlotsKept (s : FrameSlots) : Prop where
  args : ∀ args, s.args = some args → Kept (.arr args)
  kwargs : ∀ kwargs, s.kwargs = some kwargs → Kept (.obj kwargs)

lemma slotsKept_empty : SlotsKept {} :=
  ⟨fun _ h => absurd h (by simp), fun _ h => absurd h (by simp)⟩

lemma SlotsKept.getD_args {s : FrameSlots} (h : SlotsKept s) : Kept (.arr (s.args.getD [])) := by
  cases hs : s.args with
  | none =>
    exact ⟨trivial, by decide, fun _ hn => absurd hn (by simp [Json.numbers, Json.numbersItems])⟩
  | some args => exact h.args args hs

lemma SlotsKept.getD_kwargs {s : FrameSlots} (h : SlotsKept s) :
    Kept (.obj (s.kwargs.getD [])) := by
  cases hs : s.kwargs with
  | none =>
    exact ⟨⟨List.Pairwise.nil, trivial⟩, by decide,
      fun _ hn => absurd hn (by simp [Json.numbers, Json.numbersMembers])⟩
  | some kwargs => exact h.kwargs kwargs hs

/-- Arguments are read as the normal form of their list. -/
lemma normalize_of_asArgs {v : Json} {args : Args} (h : asArgs v = .ok args) :
    v.normalize = .arr args := by
  unfold asArgs at h
  split at h
  · next heq => rw [heq, Except.ok.inj h]
  · exact absurd h (by simp)

/-- Named arguments are read as the normal form of their object. -/
lemma normalize_of_asKwArgs {v : Json} {kwargs : KwArgs} (h : asKwArgs v = .ok kwargs) :
    v.normalize = .obj kwargs := by
  unfold asKwArgs at h
  split at h
  · next heq => rw [heq, Except.ok.inj h]
  · exact absurd h (by simp)

/-- Reading a field keeps the fields kept. -/
theorem SlotsKept.read {s s' : FrameSlots} {v : Json} {field : FrameField} (hs : SlotsKept s)
    (hv : Json.Readable fieldDepth v) (h : field.read s v = .ok s') : SlotsKept s' := by
  cases field with
  | args =>
    obtain ⟨args, hargs, rfl⟩ := Json.of_map h
    refine ⟨fun args' heq => ?_, hs.kwargs⟩
    rw [← Option.some.inj heq, ← normalize_of_asArgs hargs]
    exact kept_normalize hv
  | kwargs =>
    obtain ⟨kwargs, hkwargs, rfl⟩ := Json.of_map h
    refine ⟨hs.args, fun kwargs' heq => ?_⟩
    rw [← Option.some.inj heq, ← normalize_of_asKwArgs hkwargs]
    exact kept_normalize hv
  | _ =>
    obtain ⟨x, -, rfl⟩ := Json.of_map h
    exact ⟨hs.args, hs.kwargs⟩

/-- A member that is read is kept in its slot. -/
lemma SlotsKept.assignMember {s s' : FrameSlots} {kind : FrameKind} {m : Json.Member}
    (hs : SlotsKept s) (hm : Json.Readable fieldDepth m.2)
    (h : assignMember kind s m = .ok s') : SlotsKept s' := by
  unfold Frame.assignMember at h
  split at h
  · rwa [← Except.ok.inj h]
  split at h
  · exact absurd h (by simp)
  · exact hs.read hm h

lemma foldlM_keep {σ β ε : Type} {P : σ → Prop} {step : σ → β → Except ε σ} {l : List β}
    (hstep : ∀ s s' b, b ∈ l → P s → step s b = .ok s' → P s') {s s' : σ} (hs : P s)
    (h : l.foldlM step s = .ok s') : P s' := by
  induction l generalizing s with
  | nil => rwa [← Except.ok.inj h]
  | cons b l ih =>
    obtain ⟨t, ht, h⟩ := Json.of_bind h
    exact ih (fun s s' c hc => hstep s s' c (List.mem_cons_of_mem _ hc))
      (hstep s t b List.mem_cons_self hs ht) h

/-- Every member of a frame that is made of kept fields is kept. -/
lemma kept_of_build {s : FrameSlots} {kind : FrameKind} {f : Frame} (hs : SlotsKept s)
    (h : build s kind = .ok f) : ∀ m ∈ f.members, Kept m.2 := by
  have hargs := hs.getD_args
  have hkwargs := hs.getD_kwargs
  -- The kinds differ in how many fields they need.
  cases kind with
  | hello | welcome | abort | result | unregistered | yield =>
    obtain ⟨x, -, h⟩ := Json.of_bind h
    rw [← Except.ok.inj h]
    simp [members, kept_word, kept_str, hargs, hkwargs]
  | call | error | registered | unregister | invocation =>
    obtain ⟨x, -, h⟩ := Json.of_bind h
    obtain ⟨y, -, h⟩ := Json.of_bind h
    rw [← Except.ok.inj h]
    simp [members, kept_word, kept_str, kept_elim, hargs, hkwargs]
  | register =>
    obtain ⟨x, -, h⟩ := Json.of_bind h
    obtain ⟨y, -, h⟩ := Json.of_bind h
    obtain ⟨z, -, h⟩ := Json.of_bind h
    rw [← Except.ok.inj h]
    simp [members, kept_word, kept_str]

/-! ## Frames that have been read -/

/-- What has been read by name is kept. -/
lemma kept_of_ofMembers {kind : FrameKind} {fields : List Json.Member} {f : Frame}
    (hfields : ∀ m ∈ fields, Json.Readable fieldDepth m.2) (h : ofMembers kind fields = .ok f) :
    ∀ m ∈ f.members, Kept m.2 := by
  obtain ⟨s, hs, h⟩ := Json.of_bind h
  exact kept_of_build
    (foldlM_keep (fun _ _ m hm hs => hs.assignMember (hfields m hm)) slotsKept_empty hs) h

lemma kept_of_ofItems {kind : FrameKind} {items : List Json} {f : Frame}
    (hitems : ∀ v ∈ items, Json.Readable fieldDepth v) (h : ofItems kind items = .ok f) :
    ∀ m ∈ f.members, Kept m.2 := by
  obtain ⟨s, hs, h⟩ := Json.of_bind h
  split at h
  · exact absurd h (by simp)
  split at h
  · exact absurd h (by simp)
  · exact kept_of_build (foldlM_keep (fun _ _ field hfield hs =>
      hs.read (hitems _ (List.of_mem_zip hfield).2)) slotsKept_empty hs) h

/-- Every member that is collected is readable. -/
lemma readable_of_readMember {e e' : Envelope} {key : String} {input rest : Json.Input}
    (he : ∀ m ∈ e.members, Json.Readable fieldDepth m.2)
    (h : readMember e key input = .ok (e', rest)) :
    ∀ m ∈ e'.members, Json.Readable fieldDepth m.2 := by
  unfold readMember at h
  split at h
  · split at h
    · exact absurd h (by simp)
    · obtain ⟨input', -, h⟩ := Json.of_bind h
      obtain ⟨⟨kind, rest'⟩, -, h⟩ := Json.of_bind h
      obtain ⟨rfl, -⟩ := Prod.mk.inj (Except.ok.inj h)
      exact he
  · obtain ⟨input', -, h⟩ := Json.of_bind h
    obtain ⟨⟨v, rest'⟩, hv, h⟩ := Json.of_bind h
    obtain ⟨rfl, -⟩ := Prod.mk.inj (Except.ok.inj h)
    exact List.forall_mem_cons.2 ⟨Json.readable_of_value hv, he⟩

/-- Every member of a frame that is read is kept, whether its fields are named or listed. -/
theorem kept_of_readFrame {f : Frame} {input rest : Json.Input}
    (h : readFrame input = .ok (f, rest)) : ∀ m ∈ f.members, Kept m.2 := by
  obtain ⟨⟨found, start⟩, -, h⟩ := Json.of_bind h
  cases found with
  | map =>
    obtain ⟨⟨e, rest₁⟩, hloop, h⟩ := Json.of_bind h
    have he := Json.members_keep (P := fun e => ∀ m ∈ e.members, Json.Readable fieldDepth m.2)
      (fun _ _ _ _ _ he => readable_of_readMember he) (fun m hm => absurd hm (by simp)) hloop
    obtain ⟨kind, members⟩ := e
    cases kind with
    | none => exact absurd h (by simp)
    | some kind =>
      obtain ⟨rest₂, -, h⟩ := Json.of_bind h
      obtain ⟨frame, hframe, h⟩ := Json.of_bind h
      obtain ⟨rfl, -⟩ := Prod.mk.inj (Except.ok.inj h)
      exact kept_of_ofMembers (fun m hm => he m (List.mem_reverse.1 hm)) (Json.of_mismatched hframe)
  | sequence =>
    obtain ⟨next, -, h⟩ := Json.of_bind h
    cases next with
    | none => exact absurd h (by simp)
    | some next =>
      obtain ⟨⟨kind, rest₁⟩, -, h⟩ := Json.of_bind h
      obtain ⟨⟨items, rest₂⟩, hloop, h⟩ := Json.of_bind h
      obtain ⟨rest₃, -, h⟩ := Json.of_bind h
      obtain ⟨frame, hframe, h⟩ := Json.of_bind h
      obtain ⟨rfl, -⟩ := Prod.mk.inj (Except.ok.inj h)
      -- further items are read as those of an array are
      have hitems := Json.elements_keep (P := fun items => ∀ v ∈ items, Json.Readable fieldDepth v)
        (fun _ _ _ _ hitems => Json.readable_of_itemStep Json.readable_of_value hitems)
        (fun v hv => absurd hv (by simp)) hloop
      exact kept_of_ofItems (fun v hv => hitems v (List.mem_reverse.1 hv))
        (Json.of_mismatched hframe)
  | _ => exact absurd h (by simp)

/-! ## The round trip -/

/-- What holds of every frame that a party has in hand: named arguments are maps at every level, and
whole numbers have 64 bits. -/
structure Lawful (f : Frame) : Prop where
  areNormal : Json.AreNormalMembers f.members
  held : ∀ n ∈ f.toJson.numbers, n.Held

/-- Whether all numbers of a frame are whole. -/
def FloatFree (f : Frame) : Prop := ∀ n ∈ f.toJson.numbers, ∃ k, n = .int k

/-- Without floats, all numbers of a frame are exact. -/
lemma exact_of_floatFree {f : Frame} (hlawful : f.Lawful) (hfree : f.FloatFree) :
    ∀ n ∈ f.toJson.numbers, n.Exact := by
  intro n hn
  have hheld := hlawful.held n hn
  obtain ⟨k, rfl⟩ := hfree n hn
  exact hheld

/-- A frame that has been read is lawful. -/
lemma lawful_of_kept {f : Frame} (h : ∀ m ∈ f.members, Kept m.2) : f.Lawful := by
  refine ⟨Json.areNormalMembers_iff.2 fun m hm => (h m hm).isNormal, fun n hn => ?_⟩
  obtain ⟨m, hm, hn⟩ := Json.mem_numbersMembers.1 hn
  obtain rfl | hm := List.mem_cons.1 hm
  · exact absurd hn (by simp [Json.numbers])
  · exact (h m hm).readable.held n hn

/-- A frame that has been read is not deeper than one may be. -/
lemma depth_le_of_kept {f : Frame} (h : ∀ m ∈ f.members, Kept m.2) :
    f.toJson.depth ≤ Json.maxDepth := by
  refine Nat.add_le_add_right (Json.depthMembers_le_iff.2 fun m hm => ?_) 1
  obtain rfl | hm := List.mem_cons.1 hm
  · exact Nat.zero_le _
  · exact (h m hm).readable.depth_le

lemma render_eq (f : Frame) : f.render = f.text ++ "\n" := by
  rw [render, line, text, Json.render, String.ofList_append]

/-- A frame without floats that nests no deeper than a reader admits is read from its own text.
Every frame that is read from any line nests no deeper, so one without floats can be written and
read again, and written once more to the same text. -/
theorem text_round_trip :
    (∀ f : Frame, f.Lawful → f.FloatFree → f.toJson.depth ≤ Json.maxDepth →
      f.render = f.text ++ "\n" ∧ Frame.parse f.text = .ok f) ∧
    ∀ (line : String) (f : Frame), Frame.parse line = .ok f →
      f.Lawful ∧ f.toJson.depth ≤ Json.maxDepth ∧
        (f.FloatFree → ∃ g, Frame.parse f.text = .ok g ∧ g = f ∧ g.render = f.render) := by
  have hparse : ∀ f : Frame, f.Lawful → f.FloatFree → f.toJson.depth ≤ Json.maxDepth →
      Frame.parse f.text = .ok f := fun f hlawful hfree hdepth =>
    parse_text hlawful.areNormal hdepth (exact_of_floatFree hlawful hfree)
  constructor
  · intro f hlawful hfree hdepth
    exact ⟨render_eq f, hparse f hlawful hfree hdepth⟩
  · intro line f h
    obtain ⟨⟨g, rest⟩, hread, h⟩ := Json.of_bind h
    obtain ⟨_, -, h⟩ := Json.of_bind h
    obtain rfl := Except.ok.inj h
    have hkept := kept_of_readFrame hread
    have hlawful := lawful_of_kept hkept
    have hdepth := depth_le_of_kept hkept
    exact ⟨hlawful, hdepth, fun hfree => ⟨g, hparse g hlawful hfree hdepth, rfl, rfl⟩⟩

/-- An invocation that holds what is awkward to write: the least and the greatest number, characters
that need an escape or several bytes, empty containers, and a key that is empty. -/
def specimen : Frame :=
  .invocation 18446744073709551615 0 (some "d/\"\\\n\u0001é😀")
    [.arr [.arr [], .obj []], .num (.int (-9223372036854775808)), .null]
    [("", .str "/"), ("a", .bool true)]

/-- A line with blanks, an unknown member, an escaped name, and members out of order of which one
stands twice. -/
def spelledOut : String :=
  " \x7b\"kwargs\": \x7b\"b\":2,\"a\":[ ],\"b\":-1\x7d,\t\"request\":7,\"note\":1.5,\"type\":\"\\u0079ield\"\x7d"

/-- A frame with the largest number, escapes and nested arguments is read back. -/
theorem text_round_trip_of_specimen :
    specimen.text = "\x7b\"type\":\"invocation\",\"request\":18446744073709551615," ++
      "\"registration\":0,\"procedure\":\"d/\\\"\\\\\\n\\u0001é😀\"," ++
      "\"args\":[[[],\x7b\x7d],-9223372036854775808,null]," ++
      "\"kwargs\":\x7b\"\":\"/\",\"a\":true\x7d\x7d" ∧
    Frame.parse specimen.text = .ok specimen ∧
    ∃ f g, Frame.parse spelledOut = .ok f ∧ f.toJson.depth ≤ Json.maxDepth ∧
      f.text = "\x7b\"type\":\"yield\",\"request\":7,\"args\":[],\"kwargs\":\x7b\"a\":[],\"b\":-1\x7d\x7d" ∧
      Frame.parse f.text = .ok g ∧ g = f ∧ g.render = f.render := by
  have hargs : (Json.arr [.arr [], .obj []]).IsNormal := ⟨trivial, ⟨.nil, trivial⟩, trivial⟩
  have hkwargs : (Json.obj [("", .str "/"), ("a", .bool true)]).IsNormal :=
    ⟨by decide, trivial, trivial, trivial⟩
  have hlawful : specimen.Lawful :=
    ⟨⟨trivial, trivial, trivial, ⟨hargs, trivial, trivial, trivial⟩, hkwargs, trivial⟩, by decide⟩
  have hfree : specimen.FloatFree := by
    simp [specimen, FloatFree, toJson, members, Json.numbers, Json.numbersMembers,
      Json.numbersItems, word]
  let f : Frame := .yield 7 [] [("a", .arr []), ("b", .num (.int (-1)))]
  have hf : f.FloatFree := by
    simp [f, FloatFree, toJson, members, Json.numbers, Json.numbersMembers, Json.numbersItems, word]
  have hread : (Frame.parse spelledOut).toOption = some f := by decide +kernel
  have hparse : Frame.parse spelledOut = .ok f := Json.ok_of_toOption hread
  obtain ⟨-, hdepth, hagain⟩ := text_round_trip.2 spelledOut f hparse
  obtain ⟨g, hg⟩ := hagain hf
  exact ⟨by decide +kernel, (text_round_trip.1 specimen hlawful hfree (by decide)).2, f, g, hparse,
    hdepth, by decide +kernel, hg⟩

end Switchboard.Frame
