import Switchboard.Proofs.Text.Digits
import Switchboard.Toml.Text

/-!
# TOML strings as they are written and read

The writer chooses among five ways of quoting; the reader has four. `Lined` and `Blocked` say what a
text between single and between tripled quotes stands for, whoever has written it, so that each way
of writing is only shown to be one of the two.

* `line_of_lined` and `block_of_blocked` read such texts.
* `blocked_writeBlock` and `blocked_of_foldl` are about quotes in a row: at most two of them stand
  in a row without an escape.
* `stands_write`: whichever way a text is written, it is read back, if no quote follows.
-/

namespace Switchboard.Toml.Text

/-! ## Escapes -/

/-- The characters that are written with an escape somewhere. -/
def IsEscaped (c : Char) : Prop :=
  isControl c = true ∨ c = '\\' ∨ c = '"' ∨ c = '\n' ∨ c = '\t'

/-- What stands behind a backslash for a character. It begins with neither a blank nor a line end,
so that the backslash does not join two lines. -/
structure Escape (c : Char) (tail : List Char) : Prop where
  read : ∀ rest, escape (tail ++ rest) = some (c, rest)
  letter : ∃ e more, tail = e :: more ∧ isSpace e = false ∧ e ≠ '\n' ∧ e ≠ '\r'

lemma hexDigits_of_lt : ∀ n, n < 128 →
    [hexDigit (n / 16), hexDigit (n % 16)].all Hex.isDigit = true ∧
      Hex.ofDigits ['0', '0', hexDigit (n / 16), hexDigit (n % 16)] = n := by
  decide

lemma scalar?_toNat (c : Char) : scalar? c.toNat = some c := by
  have hvalid : c.toNat.isValidChar := c.valid
  rw [scalar?, dif_pos hvalid]
  exact congrArg some (Char.ext (UInt32.toNat_inj.1 rfl))

/-- The number of a control character is read as the character. -/
lemma hexEscape_control {c : Char} (h : isControl c = true) (rest : List Char) :
    hexEscape 4 ('0' :: '0' :: hexDigit (c.toNat / 16) :: hexDigit (c.toNat % 16) :: rest)
      = some (c, rest) := by
  have hlt : c.toNat < 128 := by
    simp only [isControl, Bool.or_eq_true, Bool.and_eq_true, decide_eq_true_eq] at h
    omega
  obtain ⟨hdigits, hvalue⟩ := hexDigits_of_lt c.toNat hlt
  have hzero : Hex.isDigit '0' = true := rfl
  simp only [List.all_cons, List.all_nil, Bool.and_true, Bool.and_eq_true] at hdigits
  simp [hexEscape, hzero, hdigits, hvalue, scalar?_toNat]

/-- Every escape that is written is one. -/
lemma escape_escapeOf {c : Char} (h : IsEscaped c) :
    ∃ tail, escapeOf c = '\\' :: tail ∧ Escape c tail := by
  have hletter {e : Char} (he : ∀ rest, escape (e :: rest) = some (c, rest))
      (hspace : isSpace e = false ∧ e ≠ '\n' ∧ e ≠ '\r') : Escape c [e] :=
    ⟨he, e, [], rfl, hspace⟩
  unfold escapeOf
  split
  · next hc => subst hc; exact ⟨_, rfl, hletter (fun _ => rfl) (by decide)⟩
  next hslash =>
  split
  · next hc => subst hc; exact ⟨_, rfl, hletter (fun _ => rfl) (by decide)⟩
  split
  · next hc => subst hc; exact ⟨_, rfl, hletter (fun _ => rfl) (by decide)⟩
  next htab =>
  split
  · next hc => subst hc; exact ⟨_, rfl, hletter (fun _ => rfl) (by decide)⟩
  next hline =>
  split
  · next hc => subst hc; exact ⟨_, rfl, hletter (fun _ => rfl) (by decide)⟩
  split
  · next hc => subst hc; exact ⟨_, rfl, hletter (fun _ => rfl) (by decide)⟩
  split
  · next hc => subst hc; exact ⟨_, rfl, hletter (fun _ => rfl) (by decide)⟩
  next hquote =>
  -- what is left has no letter of its own
  have hcontrol : isControl c = true := by
    simpa [IsEscaped, hslash, hquote, hline, htab] using h
  exact ⟨_, rfl, fun rest => hexEscape_control hcontrol rest, 'u', _, rfl, by decide⟩

lemma continuation_of_escape {c : Char} {tail : List Char} (h : Escape c tail)
    (rest : List Char) : continuation (tail ++ rest) = none := by
  obtain ⟨e, more, rfl, hspace, hline, hreturn⟩ := h.letter
  have hdrop : ((e :: more) ++ rest).dropWhile isSpace = e :: (more ++ rest) := by
    rw [List.cons_append, List.dropWhile_cons, hspace]
    rfl
  have hfeed : lineFeed (e :: (more ++ rest)) = none := by
    unfold lineFeed
    split
    · next heq => exact absurd (List.cons.inj heq).1 hline
    · next heq => exact absurd (List.cons.inj heq).1 hreturn
    · rfl
  rw [continuation, hdrop, hfeed]
  rfl

/-! ## Strings of one line -/

/-- A text as it stands between single quotes `q`. -/
inductive Lined (q : Char) (escapes : Bool) : (text : List Char) → (written : List Char) → Prop
  | nil : Lined q escapes [] []
  | plain {c : Char} {text written : List Char} (hquote : c ≠ q) (hslash : ¬(c = '\\' ∧ escapes))
      (hcontrol : ¬(isControl c ∨ c = '\n')) (h : Lined q escapes text written) :
      Lined q escapes (c :: text) (c :: written)
  | escape {c : Char} {text written tail : List Char} (hescapes : escapes = true)
      (hescape : Escape c tail) (h : Lined q escapes text written) :
      Lined q escapes (c :: text) ('\\' :: (tail ++ written))

section line

variable {q : Char} {escapes : Bool} {text written rest : List Char}

/-- A text between quotes is read up to the closing one. -/
theorem line_of_lined (hq : q ≠ '\\') (h : Lined q escapes text written) {fuel : Nat}
    (hfuel : written.length < fuel) :
    line q escapes fuel (written ++ q :: rest) = some (text, rest) := by
  -- over what is written; every character uses one unit of fuel at most
  induction h generalizing fuel with
  | nil =>
    obtain ⟨fuel, rfl⟩ := Nat.exists_eq_add_of_lt hfuel
    simp [line]
  | @plain c text written hquote hslash hcontrol h ih =>
    cases fuel with
    | zero => exact absurd hfuel (Nat.not_lt_zero _)
    | succ fuel =>
      have hread := ih (Nat.lt_of_succ_lt_succ hfuel)
      rw [List.cons_append, line, if_neg hquote, if_neg hslash, if_neg hcontrol, hread]
      rfl
  | @escape c text written tail hescapes hescape h ih =>
    cases fuel with
    | zero => exact absurd hfuel (Nat.not_lt_zero _)
    | succ fuel =>
      rw [List.length_cons, List.length_append] at hfuel
      have hread := ih (show written.length < fuel by omega)
      have hsplit : '\\' :: (tail ++ written) ++ q :: rest
          = '\\' :: (tail ++ (written ++ q :: rest)) := by simp
      rw [hsplit, line, if_neg hq.symm, if_pos ⟨rfl, hescapes⟩, hescape.read]
      dsimp only
      rw [hread]
      rfl

/-- A text is written on one line between double quotation marks. -/
lemma lined_writeLine (text : List Char) : Lined '"' true text (writeLine text) := by
  induction text with
  | nil => exact .nil
  | cons c text ih =>
    have hcons : writeLine (c :: text) = (if isControl c ∨ c = '\\' ∨ c = '"' ∨ c = '\n' ∨ c = '\t'
        then escapeOf c else [c]) ++ writeLine text := rfl
    rw [hcons]
    split
    · next h =>
      obtain ⟨tail, htail, hescape⟩ := escape_escapeOf h
      rw [htail]
      exact .escape rfl hescape ih
    · next h =>
      simp only [not_or] at h
      obtain ⟨hcontrol, hslash, hquote, hline, -⟩ := h
      exact .plain hquote (fun h => hslash h.1) (fun h => h.elim hcontrol hline) ih

/-- A text without its mark and without control characters may stand as it is. -/
lemma lined_plain (h : ∀ c ∈ text, c ≠ q ∧ isControl c = false ∧ c ≠ '\n') :
    Lined q false text text := by
  induction text with
  | nil => exact .nil
  | cons c text ih =>
    obtain ⟨⟨hquote, hcontrol, hline⟩, hmore⟩ := List.forall_mem_cons.1 h
    refine .plain hquote (fun h => absurd h.2 (by decide)) ?_ (ih hmore)
    rw [hcontrol]
    exact fun h => h.elim (by decide) hline

end line

/-! ## Strings of several lines -/

/-- A text as it stands between tripled quotes `q`: one or two quotes may stand in a row, also in
front of the closing ones. -/
inductive Blocked (q : Char) (escapes : Bool) : (text : List Char) → (written : List Char) → Prop
  | last {n : Nat} (hn : n ≤ spareQuotes) :
      Blocked q escapes (List.replicate n q) (List.replicate n q)
  | quotes {n : Nat} {text written : List Char} (hn : n ≤ spareQuotes) (hne : written ≠ [])
      (hhead : written.head? ≠ some q) (h : Blocked q escapes text written) :
      Blocked q escapes (List.replicate n q ++ text) (List.replicate n q ++ written)
  | plain {c : Char} {text written : List Char} (hquote : c ≠ q) (hslash : ¬(c = '\\' ∧ escapes))
      (hcontrol : isControl c = false) (h : Blocked q escapes text written) :
      Blocked q escapes (c :: text) (c :: written)
  | escape {c : Char} {text written tail : List Char} (hescapes : escapes = true)
      (hescape : Escape c tail) (h : Blocked q escapes text written) :
      Blocked q escapes (c :: text) ('\\' :: (tail ++ written))

section block

variable {q : Char} {escapes : Bool} {text written rest : List Char}

lemma beq_of_mem_replicate {n : Nat} : ∀ c ∈ List.replicate n q, (c == q) = true := by
  intro c hc
  rw [List.eq_of_mem_replicate hc]
  exact beq_self_eq_true q

lemma beq_of_mem_head? (hrest : rest.head? ≠ some q) : ∀ c ∈ rest.head?, (c == q) = false :=
  fun _ hc => beq_eq_false_iff_ne.2 fun heq => hrest (heq ▸ hc)

lemma takeWhile_replicate (n : Nat) (hrest : rest.head? ≠ some q) :
    (List.replicate n q ++ rest).takeWhile (· == q) = List.replicate n q :=
  Digits.takeWhile_append beq_of_mem_replicate (beq_of_mem_head? hrest)

lemma dropWhile_replicate (n : Nat) (hrest : rest.head? ≠ some q) :
    (List.replicate n q ++ rest).dropWhile (· == q) = rest :=
  Digits.dropWhile_append beq_of_mem_replicate (beq_of_mem_head? hrest)

/-- Three quotes close a text, and up to two in front of them belong to it. -/
lemma block_last {n : Nat} (hn : n ≤ spareQuotes) (hrest : rest.head? ≠ some q) (fuel : Nat) :
    block q escapes (fuel + 1) (List.replicate n q ++ q :: q :: q :: rest)
      = some (List.replicate n q, rest) := by
  have hsplit : List.replicate n q ++ q :: q :: q :: rest = List.replicate (n + 3) q ++ rest := by
    rw [← List.replicate_append_replicate, List.append_assoc]
    rfl
  have hcons : List.replicate (n + 3) q ++ rest = q :: (List.replicate (n + 2) q ++ rest) := rfl
  have hrun := takeWhile_replicate (n + 3) hrest
  have hspare : min (n + 3 - 3) spareQuotes = n := by omega
  have hdrop : (List.replicate (n + 3) q ++ rest).drop (3 + n) = rest := by
    have hlength : 3 + n = (List.replicate (n + 3) q).length := by
      rw [List.length_replicate, Nat.add_comm]
    rw [hlength, List.drop_left]
  rw [hsplit, hcons, block, if_pos rfl, ← hcons, hrun]
  dsimp only
  rw [List.length_replicate, if_neg (by omega), hspare, hdrop, List.take_replicate]
  congr 3
  omega

/-- Fewer quotes in a row belong to the text. -/
lemma block_quotes {n : Nat} (hn : n ≤ spareQuotes) (hpos : 0 < n) (hhead : rest.head? ≠ some q)
    (fuel : Nat) : block q escapes (fuel + 1) (List.replicate n q ++ rest)
      = (block q escapes fuel rest).map fun (cs, rest) => (List.replicate n q ++ cs, rest) := by
  obtain ⟨m, rfl⟩ : ∃ m, n = m + 1 := ⟨n - 1, by omega⟩
  have hcons : List.replicate (m + 1) q ++ rest = q :: (List.replicate m q ++ rest) := rfl
  have hrun := takeWhile_replicate (m + 1) hhead
  have hdrop := dropWhile_replicate (m + 1) hhead
  have hfew : m + 1 < 3 := Nat.lt_succ_of_le hn
  rw [hcons, block, if_pos rfl, ← hcons, hrun, hdrop]
  dsimp only
  rw [List.length_replicate, if_pos hfew]

/-- A text between tripled quotes is read up to the closing ones. -/
theorem block_of_blocked (hq : q ≠ '\\') (h : Blocked q escapes text written)
    (hrest : rest.head? ≠ some q) {fuel : Nat} (hfuel : written.length < fuel) :
    block q escapes fuel (written ++ q :: q :: q :: rest) = some (text, rest) := by
  -- on what stands between the quotes, which takes the reader one step for each run or character
  induction h generalizing fuel with
  | @last n hn =>
    cases fuel with
    | zero => exact absurd hfuel (Nat.not_lt_zero _)
    | succ fuel => exact block_last hn hrest fuel
  | @quotes n text written hn hne hhead h ih =>
    cases n with
    | zero => simpa using ih (by simpa using hfuel)
    | succ n =>
      cases fuel with
      | zero => exact absurd hfuel (Nat.not_lt_zero _)
      | succ fuel =>
        rw [List.length_append, List.length_replicate] at hfuel
        have hread := ih (show written.length < fuel by omega)
        have hhead' : (written ++ q :: q :: q :: rest).head? ≠ some q := by
          cases written with
          | nil => exact absurd rfl hne
          | cons c written => exact hhead
        rw [List.append_assoc, block_quotes hn (Nat.succ_pos n) hhead' fuel, hread]
        rfl
  | @plain c text written hquote hslash hcontrol h ih =>
    cases fuel with
    | zero => exact absurd hfuel (Nat.not_lt_zero _)
    | succ fuel =>
      have hread := ih (Nat.lt_of_succ_lt_succ hfuel)
      rw [List.cons_append, block, if_neg hquote, if_neg hslash, hcontrol, if_neg (by decide),
        hread]
      rfl
  | @escape c text written tail hescapes hescape h ih =>
    cases fuel with
    | zero => exact absurd hfuel (Nat.not_lt_zero _)
    | succ fuel =>
      rw [List.length_cons, List.length_append] at hfuel
      have hread := ih (show written.length < fuel by omega)
      have hsplit : '\\' :: (tail ++ written) ++ q :: q :: q :: rest
          = '\\' :: (tail ++ (written ++ q :: q :: q :: rest)) := by simp
      rw [hsplit, block, if_neg hq.symm, if_pos ⟨rfl, hescapes⟩, continuation_of_escape hescape,
        hescape.read]
      dsimp only
      rw [hread]
      rfl

/-- What has an escape among several lines has one in a single line, too. -/
lemma isEscaped_of_block {c : Char} (h : isControl c = true ∨ c = '\\' ∨ c = '\t') :
    IsEscaped c :=
  h.imp_right fun h => h.imp_right fun h => .inr (.inr h)

/-- Quotes in front of a text that begins with none, or with an escape. -/
theorem blocked_writeBlock {quotes : Nat} (hquotes : quotes ≤ spareQuotes) (text : List Char) :
    Blocked '"' true (List.replicate quotes '"' ++ text)
      (List.replicate quotes '"' ++ writeBlock quotes text) := by
  -- the quotes that have been written but not yet accounted for are carried along
  induction text generalizing quotes with
  | nil =>
    rw [writeBlock, List.append_nil]
    exact .last hquotes
  | cons c text ih =>
    rw [writeBlock]
    have hnext := ih (Nat.zero_le spareQuotes)
    split
    · next hc =>
      subst hc
      split
      · -- two quotes stand there already, so this one has an escape and ends the run
        obtain ⟨tail, htail, hescape⟩ := escape_escapeOf (c := '"') (.inr (.inr (.inl rfl)))
        rw [htail]
        exact .quotes hquotes (by simp) (by simp) (.escape rfl hescape hnext)
      · next hfew =>
        have hmore := ih (show quotes + 1 ≤ spareQuotes by omega)
        rw [List.replicate_succ', List.append_assoc, List.append_assoc] at hmore
        exact hmore
    next hquote =>
    split
    · next h =>
      obtain ⟨tail, htail, hescape⟩ := escape_escapeOf (isEscaped_of_block h)
      rw [htail]
      exact .quotes hquotes (by simp) (by simp) (.escape rfl hescape hnext)
    · next h =>
      simp only [not_or, Bool.not_eq_true] at h
      refine .quotes hquotes (by simp) (by simpa using hquote) ?_
      exact .plain hquote (fun hslash => h.2.1 hslash.1) h.1 hnext

/-- The longest run of quotes and the one that has not ended yet, behind one more character. -/
def countRun (q : Char) (p : Nat × Nat) (c : Char) : Nat × Nat :=
  if c = q then (max p.1 (p.2 + 1), p.2 + 1) else (p.1, 0)

/-- The longest run counts up. -/
lemma le_foldl_countRun (text : List Char) (p : Nat × Nat) :
    p.1 ≤ (text.foldl (countRun q) p).1 := by
  induction text generalizing p with
  | nil => exact Nat.le_refl _
  | cons c text ih =>
    have hstep : p.1 ≤ (countRun q p c).1 := by
      unfold countRun
      split
      · exact Nat.le_max_left _ _
      · exact Nat.le_refl _
    exact Nat.le_trans hstep (ih _)

/-- A text without controls whose runs of quotes are short may stand as it is. -/
theorem blocked_of_foldl {best run : Nat} (hplain : ∀ c ∈ text, isControl c = false)
    (hrun : run ≤ spareQuotes) (h : (text.foldl (countRun q) (best, run)).1 ≤ spareQuotes) :
    Blocked q false (List.replicate run q ++ text) (List.replicate run q ++ text) := by
  induction text generalizing best run with
  | nil =>
    rw [List.append_nil]
    exact .last hrun
  | cons c text ih =>
    obtain ⟨hcontrol, hplain'⟩ := List.forall_mem_cons.1 hplain
    rw [List.foldl_cons] at h
    by_cases hc : c = q
    · have hcount : countRun q (best, run) c = (max best (run + 1), run + 1) := if_pos hc
      rw [hcount] at h
      -- the run that is counted now is within the bound, since the longest is
      have hlonger : max best (run + 1) ≤ spareQuotes := Nat.le_trans
        (le_foldl_countRun text (max best (run + 1), run + 1)) h
      have hmore := ih hplain' (show run + 1 ≤ spareQuotes by omega) h
      rw [List.replicate_succ', List.append_assoc] at hmore
      rw [hc]
      exact hmore
    · have hcount : countRun q (best, run) c = (best, 0) := if_neg hc
      rw [hcount] at h
      have hmore := ih hplain' (Nat.zero_le _) h
      refine .quotes hrun (by simp) (by simpa using hc) ?_
      exact .plain hc (fun h => absurd h.2 (by decide)) hcontrol hmore

end block

/-! ## Strings of any way -/

section read

variable {q : Char} {text written rest : List Char}

/-- What stands on a line does not begin with its mark. -/
lemma Lined.head {escapes : Bool} (hq : q ≠ '\\') (h : Lined q escapes text written) :
    written.head? ≠ some q := by
  cases h with
  | nil => simp
  | plain hquote => simpa using hquote
  | escape => simpa using hq.symm

/-- What stands on a line is read as its text. -/
lemma read_of_lined (hq : q ≠ '\\') (h : Lined q (q == '"') text written)
    (hrest : rest.head? ≠ some q) : read q (written ++ q :: rest) = some (text, rest) := by
  have hread : readLine q (written ++ q :: rest) = some (text, rest) := by
    refine line_of_lined hq h ?_
    rw [List.length_append]
    omega
  cases hwritten : written with
  | nil =>
    rw [hwritten] at h hread
    cases h
    -- two quotes and no third: the reader looks for one before it takes the text to be empty
    cases rest with
    | nil => exact hread
    | cons d rest =>
      have hd : d ≠ q := by simpa using hrest
      rw [List.nil_append, read, if_neg (fun h => hd h.2), if_pos rfl]
  | cons c written =>
    have hc : c ≠ q := by simpa [hwritten] using h.head hq
    rw [hwritten] at hread
    -- there is at least the closing quote behind the first character
    cases hmore : written ++ q :: rest with
    | nil => simp at hmore
    | cons d more =>
      rw [List.cons_append, hmore] at hread ⊢
      rw [read, if_neg (fun h => hc h.1), if_neg hc, hread]

lemma lineFeed_eq_none {s : List Char} (hline : s.head? ≠ some '\n')
    (hreturn : s.head? ≠ some '\r') : lineFeed s = none := by
  unfold lineFeed
  split
  · exact absurd rfl hline
  · exact absurd rfl hreturn
  · rfl

/-- What stands between tripled quotes is read, whether or not it begins on a line of its own. -/
lemma read_of_blocked (hq : q ≠ '\\') (h : Blocked q (q == '"') text written)
    (hrest : rest.head? ≠ some q) (lines : Bool) (hfirst : lines = false →
      lineFeed (written ++ q :: q :: q :: rest) = none) :
    read q (q :: q :: ((if lines then ['\n'] else []) ++ (written ++ q :: q :: q :: rest)))
      = some (text, rest) := by
  have hopen : openBlock ((if lines then ['\n'] else []) ++ (written ++ q :: q :: q :: rest))
      = written ++ q :: q :: q :: rest := by
    cases lines with
    | true => rfl
    | false =>
      rw [openBlock, if_neg (by decide), List.nil_append, hfirst rfl]
      rfl
  rw [read, if_pos ⟨rfl, rfl⟩, readBlock, hopen]
  refine block_of_blocked hq h hrest ?_
  simp only [List.length_append]
  omega

/-- A written text without lines begins with neither a line feed nor a carriage return. -/
lemma lineFeed_writeBlock (h : '\n' ∉ text) :
    lineFeed (writeBlock 0 text ++ '"' :: '"' :: '"' :: rest) = none := by
  cases text with
  | nil => rfl
  | cons c text =>
    have hline : c ≠ '\n' := fun hc => h (hc ▸ List.mem_cons_self)
    rw [writeBlock]
    split
    · next hc =>
      rw [hc, if_neg (by decide)]
      rfl
    split
    · next hc =>
      obtain ⟨tail, htail, -⟩ := escape_escapeOf (isEscaped_of_block hc)
      rw [htail]
      rfl
    · next hc =>
      have hreturn : c ≠ '\r' := by
        rintro rfl
        exact hc (.inl rfl)
      exact lineFeed_eq_none (by simpa using hline) (by simpa using hreturn)

end read

/-- A string with its quotes: it is read as the text if no quote follows. -/
def Stands (written text : List Char) : Prop :=
  ∃ q body, written = q :: body ∧ (q = '"' ∨ q = '\'') ∧
    ∀ rest : List Char, rest.head? ≠ some q → read q (body ++ rest) = some (text, rest)

section stands

variable {q : Char} {text written : List Char}

/-- A text between marks on a line stands for itself. -/
lemma stands_of_lined (hq : q = '"' ∨ q = '\'') (h : Lined q (q == '"') text written) :
    Stands (q :: (written ++ [q])) text := by
  have hslash : q ≠ '\\' := by
    rcases hq with rfl | rfl <;> decide
  refine ⟨q, _, rfl, hq, fun rest hrest => ?_⟩
  rw [List.append_assoc]
  exact read_of_lined hslash h hrest

/-- A text between triple marks stands for itself. -/
lemma stands_of_blocked (hq : q = '"' ∨ q = '\'') (h : Blocked q (q == '"') text written)
    (lines : Bool) (hfirst : lines = false → ∀ rest : List Char,
      lineFeed (written ++ q :: q :: q :: rest) = none) :
    Stands (inBlock q lines written) text := by
  have hslash : q ≠ '\\' := by
    rcases hq with rfl | rfl <;> decide
  refine ⟨q, _, rfl, hq, fun rest hrest => ?_⟩
  have hread := read_of_blocked hslash h hrest lines (fun hlines => hfirst hlines rest)
  simpa using hread

/-- What has been written is read. -/
theorem stands_write (text : List Char) : Stands (write text) text := by
  have hline : Stands ('"' :: writeLine text ++ ['"']) text :=
    stands_of_lined (.inl rfl) (lined_writeLine text)
  have hblock : Stands (inBlock '"' ('\n' ∈ text) (writeBlock 0 text)) text := by
    have hblocked : Blocked '"' true text (writeBlock 0 text) :=
      blocked_writeBlock (Nat.zero_le _) text
    exact stands_of_blocked (.inl rfl) hblocked _ fun hlines _ =>
      lineFeed_writeBlock (of_decide_eq_false hlines)
  have hcontrols (h : (!text.any isControl) = true) : ∀ c ∈ text, isControl c = false := by
    intro c hc
    simpa using List.any_eq_false.1 (by simpa using h) c hc
  -- one case for each of the four ways to write a text, in the order of the choice
  unfold write
  dsimp only
  split
  · exact hline
  split
  · next hfit =>
    obtain ⟨hplain, hquote, hlines⟩ := hfit
    have hlines : '\n' ∉ text := by simpa using hlines
    refine stands_of_lined (.inr rfl) (lined_plain fun c hc => ⟨?_, hcontrols hplain c hc, ?_⟩)
    · exact fun heq => hquote (heq ▸ hc)
    · exact fun heq => hlines (heq ▸ hc)
  split
  · exact hblock
  split
  · next hfit =>
    obtain ⟨hplain, hrun⟩ := hfit
    have hplain := hcontrols hplain
    have hcount : (text.foldl (countRun '\'') (0, 0)).1 ≤ spareQuotes := hrun
    have hblocked : Blocked '\'' false text text := blocked_of_foldl hplain (Nat.zero_le _) hcount
    refine stands_of_blocked (.inr rfl) hblocked _ fun hlines rest => ?_
    have hlines : '\n' ∉ text := of_decide_eq_false hlines
    cases text with
    | nil => rfl
    | cons c text =>
      have hc := hplain c List.mem_cons_self
      refine lineFeed_eq_none ?_ ?_
      · rintro ⟨⟩
        exact hlines List.mem_cons_self
      · rintro ⟨⟩
        exact absurd hc (by decide)
  split
  · exact hblock
  · exact hline

end stands

end Switchboard.Toml.Text
