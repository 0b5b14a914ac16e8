import Switchboard.Proofs.Json.Numerals
import Switchboard.Proofs.Json.Values

/-!
# The syntax of JSON values

What values look like as tokens in a row, and that exactly these are read, whatever blanks stand
between them.

* `Spells`: the tokens of a value, and `Clause`: a member with its tokens.
* `value_of_row` reads the tokens of a value, and `spells_of_value` says that nothing else is read.
  Together they are `value_eq_ok_iff`, and `parse_eq_ok_iff` for whole texts.
* `members_row` follows the loop over the clauses of an object, whatever the step is that reads one.
-/

namespace Switchboard.Json

/-! ## The syntax -/

/-- A member as it is written: its name and its value, each with its tokens. -/
structure Clause where
  name : String
  key : List Char
  value : Json
  spelling : List (List Char)

namespace Clause

/-- The member that a clause writes. -/
def member (c : Clause) : Member := (c.name, c.value)

/-- The tokens of a clause. -/
def tokens (c : Clause) : List (List Char) := c.key :: [':'] :: c.spelling

end Clause

/-- The comma in front of a part; the first part is without. -/
def comma (first : Bool) : List (List Char) := if first then [] else [[',']]

/-- Parts in a row, with commas between them. -/
def parted : (first : Bool) → (parts : List (List (List Char))) → List (List Char)
  | _, [] => []
  | first, part :: parts => comma first ++ (part ++ parted false parts)

lemma parted_cons_append (first : Bool) (part : List (List Char))
    (parts : List (List (List Char))) (more : List (List Char)) :
    parted first (part :: parts) ++ more
      = comma first ++ (part ++ (parted false parts ++ more)) := by
  rw [parted, List.append_assoc, List.append_assoc]

/-- The tokens of a value. -/
inductive Spells : Json → List (List Char) → Prop
  | null : Spells .null [['n', 'u', 'l', 'l']]
  | true : Spells (.bool true) [['t', 'r', 'u', 'e']]
  | false : Spells (.bool false) [['f', 'a', 'l', 's', 'e']]
  | num {n : Number} {token : List Char} (h : Numeral n token) : Spells (.num n) [token]
  | str {s : String} {token : List Char} (h : Quoted s token) : Spells (.str s) [token]
  | arr {items : List (Json × List (List Char))} (h : ∀ i ∈ items, Spells i.1 i.2) :
      Spells (.arr (items.map Prod.fst)) (['['] :: (parted true (items.map Prod.snd) ++ [[']']]))
  | obj {clauses : List Clause} (hkey : ∀ c ∈ clauses, Quoted c.name c.key)
      (h : ∀ c ∈ clauses, Spells c.value c.spelling) :
      Spells (.obj (clauses.map Clause.member))
        (['\x7b'] :: (parted true (clauses.map Clause.tokens) ++ [['\x7d']]))

/-! ## Tokens at the front -/

/-- A token is a string in its quotes if it is read as one alone. -/
theorem quoted_of_string {s : String} {token : List Char}
    (h : string (Input.ofText token) = .ok (s, [])) : Quoted s ('"' :: token) := by
  obtain ⟨written, hwritten, heq⟩ := string_eq_ok_iff.1 h
  refine ⟨written, hwritten, congrArg _ (ofText_inj ?_)⟩
  rw [heq, ofText_append]
  rfl

/-- The first token of a value is no closing bracket. -/
theorem Spells.starts {v : Json} {tokens : List (List Char)} (h : Spells v tokens) :
    ∃ token rest, tokens = token :: rest ∧ Starts token := by
  cases h with
  | null => exact ⟨_, _, rfl, 'n', _, rfl, by decide, by decide, by decide⟩
  | true => exact ⟨_, _, rfl, 't', _, rfl, by decide, by decide, by decide⟩
  | false => exact ⟨_, _, rfl, 'f', _, rfl, by decide, by decide, by decide⟩
  | num h => exact ⟨_, _, rfl, h.starts⟩
  | str h => exact ⟨_, _, rfl, h.starts⟩
  | arr h => exact ⟨_, _, rfl, '[', _, rfl, by decide, by decide, by decide⟩
  | obj hkey h => exact ⟨_, _, rfl, '\x7b', _, rfl, by decide, by decide, by decide⟩

section front

variable {token : List Char} {tokens : List (List Char)} {input : Input}

/-- There are no blanks in front of a value. -/
lemma skipBlank_of_starts (h : Starts token) (rest : Input) :
    skipBlank (Input.ofText token ++ rest) = Input.ofText token ++ rest := by
  obtain ⟨c, tail, rfl, hblank, -⟩ := h
  rw [ofText_cons, List.cons_append, skipBlank_cons hblank]

lemma ends_parted (parts : List (List (List Char))) {more : List (List Char)} (h : Ends more) :
    Ends (parted false parts ++ more) := by
  cases parts with
  | nil => exact h
  | cons part parts => exact ends_cons (.inl rfl)

/-! ## The loops at a token -/

/-- Where a value comes next, there is an element. -/
lemma nextElement_of_row {first : Bool} (h : Starts token)
    (hrow : Row (comma first ++ token :: tokens) input) :
    ∃ next, nextElement first input = .ok (some next) ∧ Row (token :: tokens) next := by
  cases first with
  | true =>
    obtain ⟨rest, hskip, hrest⟩ := of_row_cons hrow
    refine ⟨Input.ofText token ++ rest, ?_, row_cons (skipBlank_of_starts h rest) hrest⟩
    rw [nextElement_congr true hskip, nextElement_first h]
  | false =>
    obtain ⟨behind, hcomma, hbehind⟩ := of_row_mark (c := ',') (by decide) hrow
    obtain ⟨rest, hskip, hrest⟩ := of_row_cons hbehind
    refine ⟨Input.ofText token ++ rest, ?_, row_cons (skipBlank_of_starts h rest) hrest⟩
    have hfront : skipBlank input = skipBlank (some ',' :: behind) := by
      rw [hcomma, skipBlank_cons (by decide)]
    rw [nextElement_congr false hfront, nextElement_comma hskip, nextElement_next h]

lemma nextElement_close (first : Bool) (hrow : Row ([']'] :: tokens) input) :
    nextElement first input = .ok none := by
  obtain ⟨rest, hskip, -⟩ := of_row_mark (c := ']') (by decide) hrow
  rw [nextElement, hskip]
  rfl

lemma endList_of_row (hrow : Row ([']'] :: tokens) input) :
    ∃ rest, endList input = .ok rest ∧ Row tokens rest := by
  obtain ⟨rest, hskip, hrest⟩ := of_row_mark (c := ']') (by decide) hrow
  exact ⟨rest, by rw [endList, hskip]; rfl, hrest⟩

/-- Where a key comes next, it is read. -/
lemma nextKey_of_row {first : Bool} {name : String} {key : List Char} (h : Quoted name key)
    (hrow : Row (comma first ++ key :: tokens) input) :
    ∃ rest, nextKey first input = .ok (some (name, rest)) ∧ Row tokens rest := by
  obtain ⟨written, hwritten, rfl⟩ := h
  -- in front of the key the loop is at its quote, with or without a comma
  have hkey : ∀ input, Row (('"' :: (written ++ ['"'])) :: tokens) input →
      ∃ body rest, skipBlank input = some '"' :: body ∧ string body = .ok (name, rest) ∧
        Row tokens rest := by
    intro input hrow
    obtain ⟨rest, hskip, hrest⟩ := of_row_token (by decide) hrow
    refine ⟨_, rest, hskip, string_eq_ok_iff.2 ⟨written, hwritten, ?_⟩, hrest⟩
    simp
  cases first with
  | true =>
    obtain ⟨body, rest, hskip, hstring, hrest⟩ := hkey input hrow
    refine ⟨rest, ?_, hrest⟩
    rw [nextKey, hskip]
    simp [hstring, Except.map]
  | false =>
    obtain ⟨behind, hcomma, hbehind⟩ := of_row_mark (c := ',') (by decide) hrow
    obtain ⟨body, rest, hskip, hstring, hrest⟩ := hkey behind hbehind
    refine ⟨rest, ?_, hrest⟩
    rw [nextKey, hcomma]
    simp [hskip, hstring, Except.map]

lemma nextKey_close (first : Bool) (hrow : Row (['\x7d'] :: tokens) input) :
    nextKey first input = .ok none := by
  obtain ⟨rest, hskip, -⟩ := of_row_mark (c := '\x7d') (by decide) hrow
  rw [nextKey, hskip]
  rfl

lemma colon_of_row (hrow : Row ([':'] :: tokens) input) :
    ∃ rest, colon input = .ok rest ∧ Row tokens rest := by
  obtain ⟨rest, hskip, hrest⟩ := of_row_mark (c := ':') (by decide) hrow
  exact ⟨rest, by rw [colon, hskip]; rfl, hrest⟩

lemma endObject_of_row (hrow : Row (['\x7d'] :: tokens) input) :
    ∃ rest, endObject input = .ok rest ∧ Row tokens rest := by
  obtain ⟨rest, hskip, hrest⟩ := of_row_mark (c := '\x7d') (by decide) hrow
  exact ⟨rest, by rw [endObject, hskip]; rfl, hrest⟩

end front

/-! ## Fuel -/

/-- A row has no more characters than its input. -/
lemma length_flatten_le_of_row {tokens : List (List Char)} {input : Input}
    (h : Row tokens input) : tokens.flatten.length ≤ input.length := by
  obtain ⟨text, htext, rfl⟩ := h
  rw [Input.ofText, List.length_map]
  induction htext with
  | nil => exact Nat.zero_le _
  | cons hblank htext ih =>
    rw [List.flatten_cons, List.length_append, List.length_append, List.length_append]
    omega

/-- The fuel of a loop is enough for the parts that stand behind its opening bracket. -/
lemma lt_fuel_of_row {parts : List (List (List Char))}
    (hparts : ∀ part ∈ parts, ∃ token tokens, part = token :: tokens ∧ Starts token) (s : Symbol)
    {more : List (List Char)} {behind : Input} (h : Row (parted true parts ++ more) behind) :
    parts.length < (s :: behind).length + 1 := by
  -- a part takes one character at least
  have hlength : ∀ first, parts.length ≤ (parted first parts).flatten.length := by
    clear h
    induction parts with
    | nil => exact fun _ => Nat.zero_le _
    | cons part parts ih =>
      intro first
      obtain ⟨token, tokens, rfl, c, tail, rfl, -⟩ := hparts part List.mem_cons_self
      have hrest := ih (fun p hp => hparts p (List.mem_cons_of_mem _ hp)) false
      simp only [parted, List.flatten_append, List.flatten_cons, List.length_append,
        List.length_cons]
      omega
  have hrow := length_flatten_le_of_row h
  rw [List.flatten_append, List.length_append] at hrow
  have htrue := hlength true
  rw [List.length_cons]
  omega

/-! ## From tokens to values -/

/-- The reader of values takes the tokens for the value, whatever may follow. -/
def IsRead (levels : Nat) (v : Json) (tokens : List (List Char)) : Prop :=
  ∀ {more input}, Ends more → Row (tokens ++ more) input →
    ∃ rest, Row more rest ∧ value levels input = .ok (v, rest)

/-- The step of a loop takes the tokens of a clause behind its key, and makes of the member what `g`
makes of it. -/
def StepReads {σ : Type} (step : σ → String → Input → Except Error (σ × Input))
    (g : σ → Member → Except Error σ) (c : Clause) : Prop :=
  ∀ acc {more input}, Ends more → Row ([':'] :: (c.spelling ++ more)) input →
    ∃ rest, Row more rest ∧ step acc c.name input = (g acc c.member).map (·, rest)

/-- The loop over an array reads the values of its items. -/
lemma elements_row {levels : Nat} {items : List (Json × List (List Char))}
    (hspells : ∀ i ∈ items, Spells i.1 i.2) (hread : ∀ i ∈ items, IsRead levels i.1 i.2)
    {fuel : Nat} (hfuel : items.length < fuel) {first : Bool} (acc : List Json)
    {more : List (List Char)} {input : Input}
    (hrow : Row (parted first (items.map Prod.snd) ++ [']'] :: more) input) :
    ∃ rest, Row ([']'] :: more) rest ∧ elements (itemStep levels) fuel first acc input
      = .ok ((items.map Prod.fst).reverse ++ acc, rest) := by
  induction items generalizing fuel first acc input with
  | nil =>
    obtain ⟨fuel, rfl⟩ := Nat.exists_eq_add_one.2 hfuel
    refine ⟨input, hrow, ?_⟩
    rw [elements, nextElement_close first hrow]
    rfl
  | cons i items ih =>
    obtain ⟨fuel, rfl⟩ := Nat.exists_eq_add_one.2 (Nat.zero_lt_of_lt hfuel)
    obtain ⟨token, tokens, htokens, hstarts⟩ := (hspells i List.mem_cons_self).starts
    rw [List.map_cons, parted_cons_append, htokens, List.cons_append] at hrow
    obtain ⟨next, hnext, hrow⟩ := nextElement_of_row hstarts hrow
    rw [← List.cons_append, ← htokens] at hrow
    obtain ⟨rest, hrest, hvalue⟩ := hread i List.mem_cons_self
      (ends_parted _ (ends_cons (.inr (.inl rfl)))) hrow
    obtain ⟨rest', hrest', hloop⟩ := ih (fun j hj => hspells j (List.mem_cons_of_mem _ hj))
      (fun j hj => hread j (List.mem_cons_of_mem _ hj)) (Nat.lt_of_succ_lt_succ hfuel) (i.1 :: acc)
      hrest
    refine ⟨rest', hrest', ?_⟩
    rw [elements, hnext]
    simp only [malformed, bind, Except.bind, itemStep, hvalue, hloop]
    simp

/-- The loop over an object makes of the clauses what its step makes of each. -/
theorem members_row {σ : Type} {step : σ → String → Input → Except Error (σ × Input)}
    {g : σ → Member → Except Error σ} {clauses : List Clause}
    (hkey : ∀ c ∈ clauses, Quoted c.name c.key) (hread : ∀ c ∈ clauses, StepReads step g c)
    {fuel : Nat} (hfuel : clauses.length < fuel) {first : Bool} (acc : σ)
    {more : List (List Char)} {input : Input}
    (hrow : Row (parted first (clauses.map Clause.tokens) ++ ['\x7d'] :: more) input) :
    ∃ rest, Row (['\x7d'] :: more) rest ∧ members step fuel first acc input
      = ((clauses.map Clause.member).foldlM g acc).map (·, rest) := by
  induction clauses generalizing fuel first acc input with
  | nil =>
    obtain ⟨fuel, rfl⟩ := Nat.exists_eq_add_one.2 hfuel
    refine ⟨input, hrow, ?_⟩
    rw [members, nextKey_close first hrow]
    rfl
  | cons c clauses ih =>
    obtain ⟨fuel, rfl⟩ := Nat.exists_eq_add_one.2 (Nat.zero_lt_of_lt hfuel)
    rw [List.map_cons, parted_cons_append, Clause.tokens, List.cons_append, List.cons_append]
      at hrow
    obtain ⟨next, hnext, hrow⟩ := nextKey_of_row (hkey c List.mem_cons_self) hrow
    obtain ⟨rest, hrest, hstep⟩ := hread c List.mem_cons_self acc
      (ends_parted _ (ends_cons (.inr (.inr rfl)))) hrow
    have htail := fun acc => ih (fun d hd => hkey d (List.mem_cons_of_mem _ hd))
      (fun d hd => hread d (List.mem_cons_of_mem _ hd)) (Nat.lt_of_succ_lt_succ hfuel) acc hrest
    rw [members, hnext]
    simp only [malformed, bind, Except.bind, hstep, List.map_cons, List.foldlM_cons]
    cases g acc c.member with
    | error e =>
      obtain ⟨rest', hrest', -⟩ := htail acc
      exact ⟨rest', hrest', rfl⟩
    | ok acc' => exact htail acc'

/-- What is seen first is read, if it is no list and no object. -/
lemma isRead_of_glimpse {levels : Nat} {token : List Char} (found : Found)
    (hsequence : found ≠ .sequence) (hmap : found ≠ .map)
    (h : ∀ rest, Stops rest → glimpse (Input.ofText token ++ rest) = .ok (found, rest)) :
    IsRead levels (ofFound found) [token] := by
  intro more input hmore hrow
  obtain ⟨rest, hskip, hrest⟩ := of_row_cons hrow
  have hfound := h rest (stops_of_ends hmore hrest)
  rw [← glimpse_congr hskip] at hfound
  exact ⟨rest, hrest, value_of_scalar hfound hsequence hmap⟩

/-- A list is read when its items are. -/
lemma isRead_arr {levels : Nat} {items : List (Json × List (List Char))}
    (hspells : ∀ i ∈ items, Spells i.1 i.2) (hread : ∀ i ∈ items, IsRead levels i.1 i.2) :
    IsRead (levels + 1) (.arr (items.map Prod.fst))
      (['['] :: (parted true (items.map Prod.snd) ++ [[']']])) := by
  intro more input hmore hrow
  rw [List.cons_append, List.append_assoc] at hrow
  obtain ⟨behind, hskip, hrow⟩ := of_row_mark (by decide) hrow
  have hfound : glimpse input = .ok (.sequence, some '[' :: behind) := by
    rw [glimpse, hskip]
    rfl
  have hfuel := lt_fuel_of_row (fun part hpart => by
    obtain ⟨i, hi, rfl⟩ := List.mem_map.1 hpart
    exact (hspells i hi).starts) (some '[') hrow
  rw [List.length_map] at hfuel
  obtain ⟨rest, hclose, hloop⟩ := elements_row hspells hread hfuel [] hrow
  obtain ⟨rest', hend, hrest⟩ := endList_of_row hclose
  refine ⟨rest', hrest, ?_⟩
  rw [value_of_sequence hfound, array, List.tail_cons, hloop, List.append_nil]
  simp [malformed, bind, Except.bind, hend]

/-- The fuel of the loop over an object is enough for its clauses. -/
theorem lt_fuel_of_clauses {clauses : List Clause} (hkey : ∀ c ∈ clauses, Quoted c.name c.key)
    {more : List (List Char)} {behind : Input}
    (h : Row (parted true (clauses.map Clause.tokens) ++ more) behind) :
    clauses.length < (some '\x7b' :: behind).length + 1 := by
  have hfuel := lt_fuel_of_row (fun part hpart => by
    obtain ⟨c, hc, rfl⟩ := List.mem_map.1 hpart
    exact ⟨_, _, rfl, (hkey c hc).starts⟩) (some '\x7b') h
  rwa [List.length_map] at hfuel

lemma foldlM_collect (ms acc : List Member) :
    ms.foldlM (fun acc m => (.ok (m :: acc) : Except Error (List Member))) acc
      = .ok (ms.reverse ++ acc) := by
  induction ms generalizing acc with
  | nil => rfl
  | cons m ms ih =>
    rw [List.foldlM_cons, List.reverse_cons, List.append_assoc]
    exact ih (m :: acc)

lemma stepReads_memberStep {levels : Nat} {c : Clause} (h : IsRead levels c.value c.spelling) :
    StepReads (memberStep levels) (fun acc m => .ok (m :: acc)) c := by
  intro acc more input hmore hrow
  obtain ⟨behind, hcolon, hrow⟩ := colon_of_row hrow
  obtain ⟨rest, hrest, hvalue⟩ := h hmore hrow
  refine ⟨rest, hrest, ?_⟩
  rw [memberStep, hcolon]
  simp only [malformed, bind, Except.bind, hvalue]
  rfl

/-- An object is read when the values of its clauses are. -/
lemma isRead_obj {levels : Nat} {clauses : List Clause}
    (hkey : ∀ c ∈ clauses, Quoted c.name c.key)
    (hread : ∀ c ∈ clauses, IsRead levels c.value c.spelling) :
    IsRead (levels + 1) (.obj (clauses.map Clause.member))
      (['\x7b'] :: (parted true (clauses.map Clause.tokens) ++ [['\x7d']])) := by
  intro more input hmore hrow
  rw [List.cons_append, List.append_assoc] at hrow
  obtain ⟨behind, hskip, hrow⟩ := of_row_mark (by decide) hrow
  have hfound : glimpse input = .ok (.map, some '\x7b' :: behind) := by
    rw [glimpse, hskip]
    rfl
  obtain ⟨rest, hclose, hloop⟩ := members_row hkey
    (fun c hc => stepReads_memberStep (hread c hc)) (lt_fuel_of_clauses hkey hrow) [] hrow
  obtain ⟨rest', hend, hrest⟩ := endObject_of_row hclose
  refine ⟨rest', hrest, ?_⟩
  rw [value_of_map hfound, object, List.tail_cons, hloop, foldlM_collect, List.append_nil]
  simp only [Except.map, malformed, bind, Except.bind, hend, List.reverse_reverse]

/-- The tokens of a value are read, whatever blanks stand between them. -/
theorem value_of_row {v : Json} {tokens : List (List Char)} (h : Spells v tokens) {levels : Nat}
    (hdepth : v.depth ≤ levels) : IsRead levels v tokens := by
  induction h generalizing levels with
  | null => exact isRead_of_glimpse .null (by simp) (by simp) fun _ _ => rfl
  | true => exact isRead_of_glimpse (.bool true) (by simp) (by simp) fun _ _ => rfl
  | false => exact isRead_of_glimpse (.bool false) (by simp) (by simp) fun _ _ => rfl
  | @num n token h =>
    cases n with
    | int k => exact isRead_of_glimpse (.int k) (by simp) (by simp) fun _ => glimpse_numeral h
    | float x => exact isRead_of_glimpse (.float x) (by simp) (by simp) fun _ => glimpse_numeral h
  | @str s token h =>
    exact isRead_of_glimpse (.str s) (by simp) (by simp) fun rest _ => glimpse_quoted h rest
  | @arr items h ih =>
    obtain ⟨levels, rfl⟩ := Nat.exists_eq_add_one.2 (Nat.zero_lt_of_lt hdepth)
    rw [depth, Nat.add_le_add_iff_right, depthItems_le_iff] at hdepth
    exact isRead_arr h fun i hi => ih i hi (hdepth i.1 (List.mem_map_of_mem hi))
  | @obj clauses hkey h ih =>
    obtain ⟨levels, rfl⟩ := Nat.exists_eq_add_one.2 (Nat.zero_lt_of_lt hdepth)
    rw [depth, Nat.add_le_add_iff_right, depthMembers_le_iff] at hdepth
    exact isRead_obj hkey fun c hc => ih c hc (hdepth c.member (List.mem_map_of_mem hc))

/-! ## From values to tokens -/

/-- Tokens stand in front of the rest of an input. -/
def Leads (input : Input) (tokens : List (List Char)) (rest : Input) : Prop :=
  ∀ more, Row more rest → Row (tokens ++ more) input

lemma leads_of_skipBlank {input rest : Input} {token : List Char}
    (h : skipBlank input = Input.ofText token ++ rest) : Leads input [token] rest :=
  fun _ hmore => row_cons h hmore

lemma Leads.append {input between rest : Input} {tokens tokens' : List (List Char)}
    (h : Leads input tokens between) (h' : Leads between tokens' rest) :
    Leads input (tokens ++ tokens') rest := by
  intro more hmore
  rw [List.append_assoc]
  exact h _ (h' more hmore)

section leads

variable {input rest : Input} {first : Bool}

/-- A comma, if any, leads to the next element. -/
lemma leads_of_nextElement {next : Input} (h : nextElement first input = .ok (some next)) :
    Leads input (comma first) next := by
  intro more hmore
  cases first with
  | true =>
    rw [of_nextElement_first h] at hmore
    exact row_of_skipBlank hmore
  | false =>
    obtain ⟨behind, hskip, rfl⟩ := of_nextElement_next h
    exact row_cons hskip (row_of_skipBlank hmore)

lemma leads_of_endList (h : endList input = .ok rest) : Leads input [[']']] rest :=
  leads_of_skipBlank (of_endList h)

/-- A quoted text leads to what is after it. -/
lemma leads_of_string {body : Input} {name : String} (hskip : skipBlank input = some '"' :: body)
    (h : string body = .ok (name, rest)) :
    ∃ key, Quoted name key ∧ Leads input [key] rest := by
  obtain ⟨written, hwritten, rfl⟩ := string_eq_ok_iff.1 h
  exact ⟨_, ⟨written, hwritten, rfl⟩, leads_of_skipBlank (by simp [hskip])⟩

/-- A key leads to its colon. -/
lemma leads_of_nextKey {name : String} (h : nextKey first input = .ok (some (name, rest))) :
    ∃ key, Quoted name key ∧ Leads input (comma first ++ [key]) rest := by
  unfold nextKey at h
  split at h
  · exact absurd h (by simp)
  · exact absurd h (by simp)
  next s behind _ heq =>
  split at h
  · next hfirst =>
    split at h
    · next hquote =>
      obtain ⟨⟨name', rest'⟩, hstring, hpair⟩ := of_map h
      obtain ⟨rfl, rfl⟩ := Prod.mk.inj (Option.some.inj hpair)
      rw [hfirst]
      exact leads_of_string (hquote ▸ heq) hstring
    · exact absurd h (by simp)
  next hfirst =>
  split at h
  · next hcomma =>
    split at h
    · exact absurd h (by simp)
    · next body hbody =>
      obtain ⟨⟨name', rest'⟩, hstring, hpair⟩ := of_map h
      obtain ⟨rfl, rfl⟩ := Prod.mk.inj (Option.some.inj hpair)
      obtain ⟨key, hkey, hleads⟩ := leads_of_string hbody hstring
      rw [Bool.not_eq_true] at hfirst
      rw [hfirst]
      rw [hcomma] at heq
      have hfront : Leads input [[',']] behind := leads_of_skipBlank heq
      exact ⟨key, hkey, hfront.append hleads⟩
    · exact absurd h (by simp)
    · exact absurd h (by simp)
  · exact absurd h (by simp)

lemma leads_of_colon (h : colon input = .ok rest) : Leads input [[':']] rest := by
  unfold colon at h
  split at h
  · exact absurd h (by simp)
  · next heq =>
    rw [← Except.ok.inj h]
    exact leads_of_skipBlank heq
  · exact absurd h (by simp)

lemma leads_of_endObject (h : endObject input = .ok rest) : Leads input [['\x7d']] rest := by
  unfold endObject at h
  split at h
  · exact absurd h (by simp)
  · next heq =>
    rw [← Except.ok.inj h]
    exact leads_of_skipBlank heq
  · exact absurd h (by simp)
  · exact absurd h (by simp)

lemma Number.found_ne_map (n : Number) : n.found ≠ .map := by
  cases n <;> simp [Number.found]

lemma of_glimpse_map (h : glimpse input = .ok (.map, rest)) :
    skipBlank input = rest ∧ ∃ behind, rest = some '\x7b' :: behind := by
  have hfound := glimpsed h
  generalize skipBlank input = next at hfound ⊢
  generalize hmap : Found.map = found at hfound
  cases hfound with
  | map behind => exact ⟨rfl, behind, rfl⟩
  | _ => exact absurd hmap.symm (by simp [Number.found_ne_map])

/-- A word that is read after its first letter leads to what is after it. -/
lemma leads_of_literal {c : Char} {tail : List Char} {body : Input} {found word : Found}
    (hskip : skipBlank input = some c :: body)
    (h : (literal tail body).map (word, ·) = .ok (found, rest)) :
    found = word ∧ Leads input [c :: tail] rest := by
  obtain ⟨rest', hliteral, hpair⟩ := of_map h
  obtain ⟨rfl, rfl⟩ := Prod.mk.inj hpair
  exact ⟨rfl, leads_of_skipBlank (by rw [hskip, literal_eq_ok_iff.1 hliteral]; rfl)⟩

/-- What is found as a scalar is its one token. -/
lemma spells_of_glimpse {found : Found} (h : glimpse input = .ok (found, rest))
    (hsequence : found ≠ .sequence) (hmap : found ≠ .map) :
    ∃ token, Spells (ofFound found) [token] ∧ Leads input [token] rest := by
  have hnumber : ∀ {negative : Bool} {n : Number} {body : Input},
      number negative body = .ok (n, rest) → ∃ token, body = Input.ofText token ++ rest ∧
        number negative (Input.ofText token) = .ok (n, []) := numeral_of_number
  have hnum : ∀ {n : Number} {token : List Char}, Numeral n token →
      Spells (ofFound n.found) [token] := by
    intro n token h
    cases n <;> exact .num h
  -- one case for each first character
  unfold glimpse at h
  split at h
  · exact absurd h (by simp)
  · next heq =>
    obtain ⟨rfl, hleads⟩ := leads_of_literal heq h
    exact ⟨_, .null, hleads⟩
  · next heq =>
    obtain ⟨rfl, hleads⟩ := leads_of_literal heq h
    exact ⟨_, .true, hleads⟩
  · next heq =>
    obtain ⟨rfl, hleads⟩ := leads_of_literal heq h
    exact ⟨_, .false, hleads⟩
  · next heq =>
    obtain ⟨⟨s, rest'⟩, hstring, hpair⟩ := of_map h
    obtain ⟨rfl, rfl⟩ := Prod.mk.inj hpair
    obtain ⟨token, hquoted, hleads⟩ := leads_of_string heq hstring
    exact ⟨token, .str hquoted, hleads⟩
  · next heq =>
    obtain ⟨⟨n, rest'⟩, hread, hpair⟩ := of_map h
    obtain ⟨rfl, rfl⟩ := Prod.mk.inj hpair
    obtain ⟨token, rfl, hnumeral⟩ := hnumber hread
    exact ⟨_, hnum (.negative hnumeral), leads_of_skipBlank heq⟩
  · exact absurd (Prod.mk.inj (Except.ok.inj h)).1.symm hsequence
  · exact absurd (Prod.mk.inj (Except.ok.inj h)).1.symm hmap
  · next heq =>
    split at h
    · obtain ⟨⟨n, rest'⟩, hread, hpair⟩ := of_map h
      obtain ⟨rfl, rfl⟩ := Prod.mk.inj hpair
      obtain ⟨token, hinput, hnumeral⟩ := hnumber hread
      exact ⟨token, hnum (.natural hnumeral), leads_of_skipBlank (heq.trans hinput)⟩
    · exact absurd h (by simp)

end leads

/-- What the reader of values has read is spelled by tokens in front of the rest. -/
def IsSpelled (levels : Nat) : Prop :=
  ∀ {v : Json} {input rest : Input}, value levels input = .ok (v, rest) →
    ∃ tokens, Spells v tokens ∧ Leads input tokens rest

section loops

variable {levels fuel : Nat} {first : Bool} {input rest : Input}

/-- What is read as elements are items that are spelled. -/
lemma items_of_elements (h : IsSpelled levels) {acc acc' : List Json}
    (hread : elements (itemStep levels) fuel first acc input = .ok (acc', rest)) :
    ∃ items : List (Json × List (List Char)), (∀ i ∈ items, Spells i.1 i.2) ∧
      acc' = (items.map Prod.fst).reverse ++ acc ∧
      Leads input (parted first (items.map Prod.snd)) rest := by
  induction fuel generalizing first acc input with
  | zero => exact absurd hread (by simp [elements])
  | succ fuel ih =>
    obtain ⟨next, hnext, hread⟩ := of_bind hread
    cases next with
    | none =>
      obtain ⟨rfl, rfl⟩ := Prod.mk.inj (Except.ok.inj hread)
      exact ⟨[], by simp, rfl, fun _ hmore => hmore⟩
    | some next =>
      obtain ⟨⟨acc₁, rest₁⟩, hstep, hread⟩ := of_bind hread
      obtain ⟨⟨v, rest₂⟩, hvalue, hstep⟩ := of_bind hstep
      obtain ⟨rfl, rfl⟩ := Prod.mk.inj (Except.ok.inj hstep)
      obtain ⟨tokens, hspells, hleads⟩ := h hvalue
      obtain ⟨items, hitems, rfl, htail⟩ := ih hread
      refine ⟨(v, tokens) :: items, List.forall_mem_cons.2 ⟨hspells, hitems⟩, by simp, ?_⟩
      exact (leads_of_nextElement (of_malformed hnext)).append (hleads.append htail)

/-- What is read as members are clauses that are spelled. -/
lemma clauses_of_members (h : IsSpelled levels) {acc acc' : List Member}
    (hread : members (memberStep levels) fuel first acc input = .ok (acc', rest)) :
    ∃ clauses : List Clause, (∀ c ∈ clauses, Quoted c.name c.key) ∧
      (∀ c ∈ clauses, Spells c.value c.spelling) ∧
      acc' = (clauses.map Clause.member).reverse ++ acc ∧
      Leads input (parted first (clauses.map Clause.tokens)) rest := by
  induction fuel generalizing first acc input with
  | zero => exact absurd hread (by simp [members])
  | succ fuel ih =>
    obtain ⟨next, hnext, hread⟩ := of_bind hread
    cases next with
    | none =>
      obtain ⟨rfl, rfl⟩ := Prod.mk.inj (Except.ok.inj hread)
      exact ⟨[], by simp, by simp, rfl, fun _ hmore => hmore⟩
    | some next =>
      obtain ⟨name, next⟩ := next
      obtain ⟨⟨acc₁, rest₁⟩, hstep, hread⟩ := of_bind hread
      obtain ⟨behind, hcolon, hstep⟩ := of_bind hstep
      obtain ⟨⟨v, rest₂⟩, hvalue, hstep⟩ := of_bind hstep
      obtain ⟨rfl, rfl⟩ := Prod.mk.inj (Except.ok.inj hstep)
      obtain ⟨key, hkey, hname⟩ := leads_of_nextKey (of_malformed hnext)
      obtain ⟨tokens, hspells, hleads⟩ := h hvalue
      obtain ⟨clauses, hkeys, hclauses, rfl, htail⟩ := ih hread
      refine ⟨⟨name, key, v, tokens⟩ :: clauses, List.forall_mem_cons.2 ⟨hkey, hkeys⟩,
        List.forall_mem_cons.2 ⟨hspells, hclauses⟩, by simp [Clause.member], ?_⟩
      have hfront := hname.append ((leads_of_colon (of_malformed hcolon)).append
        (hleads.append htail))
      rw [List.append_assoc] at hfront
      exact hfront

end loops

/-- Nothing else than the tokens of a value is read as one. -/
theorem spells_of_value (levels : Nat) : IsSpelled levels := by
  induction levels with
  | zero =>
    intro v input rest h
    obtain ⟨found, hfound, hsequence, hmap, rfl⟩ | ⟨k, -, -, hk, -⟩ | ⟨k, -, -, hk, -⟩ :=
      value_cases h
    · obtain ⟨token, hspells, hleads⟩ := spells_of_glimpse hfound hsequence hmap
      exact ⟨_, hspells, hleads⟩
    · exact absurd hk (by simp)
    · exact absurd hk (by simp)
  | succ levels ih =>
    intro v input rest h
    obtain ⟨found, hfound, hsequence, hmap, rfl⟩ | ⟨k, acc, start, hk, hfound, hread, rfl⟩ |
      ⟨k, acc, start, hk, hfound, hread, rfl⟩ := value_cases h
    · obtain ⟨token, hspells, hleads⟩ := spells_of_glimpse hfound hsequence hmap
      exact ⟨_, hspells, hleads⟩
    · obtain rfl := Nat.succ.inj hk
      obtain ⟨hskip, behind, rfl⟩ := of_glimpse_sequence hfound
      obtain ⟨⟨acc, rest₁⟩, hloop, hread⟩ := of_bind hread
      obtain ⟨rest₂, hend, hread⟩ := of_bind hread
      obtain ⟨rfl, rfl⟩ := Prod.mk.inj (Except.ok.inj hread)
      obtain ⟨items, hitems, rfl, hleads⟩ := items_of_elements ih hloop
      rw [List.append_nil, List.reverse_reverse]
      have hfront : Leads input [['[']] behind := leads_of_skipBlank hskip
      exact ⟨_, .arr hitems,
        hfront.append (hleads.append (leads_of_endList (of_malformed hend)))⟩
    · obtain rfl := Nat.succ.inj hk
      obtain ⟨hskip, behind, rfl⟩ := of_glimpse_map hfound
      obtain ⟨⟨acc, rest₁⟩, hloop, hread⟩ := of_bind hread
      obtain ⟨rest₂, hend, hread⟩ := of_bind hread
      obtain ⟨rfl, rfl⟩ := Prod.mk.inj (Except.ok.inj hread)
      obtain ⟨clauses, hkeys, hclauses, rfl, hleads⟩ := clauses_of_members ih hloop
      rw [List.append_nil, List.reverse_reverse]
      have hfront : Leads input [['\x7b']] behind := leads_of_skipBlank hskip
      exact ⟨_, .obj hkeys hclauses,
        hfront.append (hleads.append (leads_of_endObject (of_malformed hend)))⟩

/-! ## Texts -/

/-- A value is read, with nothing left, from exactly the inputs that its tokens make up with blanks
between them. -/
theorem value_eq_ok_iff {levels : Nat} {v : Json} {input : Input} :
    (∃ rest, value levels input = .ok (v, rest) ∧ skipBlank rest = []) ↔
      v.depth ≤ levels ∧ ∃ tokens, Spells v tokens ∧ Row tokens input := by
  constructor
  · rintro ⟨rest, h, hrest⟩
    obtain ⟨tokens, hspells, hleads⟩ := spells_of_value levels h
    have hrow := hleads [] (row_nil hrest)
    rw [List.append_nil] at hrow
    exact ⟨(readable_of_value h).depth_le, tokens, hspells, hrow⟩
  · rintro ⟨hdepth, tokens, hspells, hrow⟩
    rw [← List.append_nil tokens] at hrow
    obtain ⟨rest, hrest, hvalue⟩ :=
      value_of_row hspells hdepth ends_nil hrow
    exact ⟨rest, hvalue, of_row_nil hrest⟩

/-- Tokens stand in a row in a text when the text spaces them. -/
lemma row_ofText_iff {tokens : List (List Char)} {text : List Char} :
    Row tokens (Input.ofText text) ↔ Spaced tokens text := by
  constructor
  · rintro ⟨text', htext, heq⟩
    rwa [ofText_inj heq]
  · exact fun h => ⟨text, h, rfl⟩

/-- Whether a character may stand between tokens. -/
def isBlankChar (c : Char) : Bool := [' ', '\t', '\n', '\r'].contains c

/-- Takes tokens, and the blanks in front of each, off a text of which nothing else is left. -/
def isSpaced : (tokens : List (List Char)) → List Char → Bool
  | [], text => text.all isBlankChar
  | token :: tokens, text =>
    let next := text.dropWhile isBlankChar
    token.isPrefixOf next && isSpaced tokens (next.drop token.length)

lemma spaced_of_isSpaced {tokens : List (List Char)} {text : List Char}
    (h : isSpaced tokens text = true) : Spaced tokens text := by
  have hblank {text : List Char} (h : ∀ c ∈ text, isBlankChar c = true) : Blank text :=
    fun c hc => List.contains_iff_mem.1 (h c hc)
  induction tokens generalizing text with
  | nil => exact .nil (hblank (List.all_eq_true.1 h))
  | cons token tokens ih =>
    rw [isSpaced, Bool.and_eq_true, List.isPrefixOf_iff_prefix] at h
    obtain ⟨⟨rest, hrest⟩, htail⟩ := h
    rw [← hrest, List.drop_left] at htail
    rw [← List.takeWhile_append_dropWhile (p := isBlankChar) (l := text), ← hrest]
    exact .cons (hblank (List.all_eq_true.1 List.all_takeWhile)) (ih htail)

lemma finish_eq_ok_iff {input : Input} : finish input = .ok () ↔ skipBlank input = [] :=
  ⟨of_finish, fun h => by rw [finish, if_pos h]⟩

/-- The texts of a value are its tokens with blanks between them. -/
theorem parse_eq_ok_iff {text : String} {v : Json} : parse text = .ok v ↔
    v.depth ≤ maxDepth ∧ ∃ tokens, Spells v tokens ∧ Spaced tokens text.toList := by
  simp only [← row_ofText_iff]
  rw [← value_eq_ok_iff, parse, document]
  constructor
  · intro h
    obtain ⟨⟨w, rest⟩, hvalue, h⟩ := of_bind h
    obtain ⟨_, hfinish, h⟩ := of_bind h
    obtain rfl := Except.ok.inj h
    exact ⟨rest, hvalue, finish_eq_ok_iff.1 (of_malformed hfinish)⟩
  · rintro ⟨rest, hvalue, hrest⟩
    simp only [hvalue, bind, Except.bind, finish_eq_ok_iff.2 hrest, malformed]

end Switchboard.Json
