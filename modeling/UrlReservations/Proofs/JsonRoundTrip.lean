/-
JSON loses nothing.

What is written is read back by a reader of all of JSON.  A reader has to stop where
a part ends, although it does not know what comes next, so every lemma says what is
read with anything behind it that may stand behind the part: a comma or a line feed,
which is all that is ever written there (`Follows`).  The space before a part is
skipped, however much of it there is.  With that said once (`Reads`), the notation is
gone through from the inside: characters, strings and numbers, then members and lists
of parts that are read themselves, then rows and sheets, of any number and size.

The value that is read is put together again by names, without going back to how it was written.
-/
import UrlReservations.Format
import UrlReservations.Proofs.JsonReader
import UrlReservations.Proofs.Numerals

namespace UrlReservations

namespace Json

/-! ### Strings -/

/-- The piece that a character is read as. -/
def piece (c : Char) : Piece :=
  if (shortEscapes.lookup c).isNone && c.toNat < 0x20 then .unit c.toNat else .char c

/--
Every letter that is written stands for the character it was written
for, and none announces a number.
-/
theorem escapedLetters_shortEscapes :
    ∀ entry ∈ shortEscapes, entry.2 ≠ 'u' ∧ escapedLetters.lookup entry.2 = some entry.1 := by
  decide

theorem readPieces_letter {letter c : Char} (hne : letter ≠ 'u')
    (hstands : escapedLetters.lookup letter = some c) (rest : List Char) :
    readPieces ('\\' :: letter :: rest) = (readPieces rest).map (Prod.map (.char c :: ·) id) := by
  rw [readPieces]
  · simp [hstands]
  · rintro _ _ _ _ _ rfl
    exact absurd rfl hne

theorem readPieces_number {n : Nat} (hn : n < 16 ^ 4) (rest : List Char) :
    readPieces ('\\' :: 'u' :: Numeral.hex Numeral.lowerDigit 4 n ++ rest)
      = (readPieces rest).map (Prod.map (.unit n :: ·) id) := by
  have hread := Numeral.read?_hex Numeral.digit?_lowerDigit (by decide) hn
  obtain ⟨first, second, third, fourth, hdigits⟩ : ∃ first second third fourth,
      Numeral.hex Numeral.lowerDigit 4 n = [first, second, third, fourth] := ⟨_, _, _, _, rfl⟩
  rw [hdigits] at hread ⊢
  simp only [List.cons_append, List.nil_append]
  rw [readPieces]
  simp [hread]

theorem readPieces_plain {c : Char} (hquote : c ≠ '"') (hbackslash : c ≠ '\\')
    (hcontrol : ¬ c.toNat < 0x20) (rest : List Char) :
    readPieces (c :: rest) = (readPieces rest).map (Prod.map (.char c :: ·) id) := by
  rw [readPieces.eq_def]
  simp [hquote, hbackslash, hcontrol]

/-- **A character is read as one piece**, whatever comes behind it. -/
theorem readPieces_escape (c : Char) (rest : List Char) :
    readPieces (escape c ++ rest) = (readPieces rest).map (Prod.map (piece c :: ·) id) := by
  unfold escape piece
  cases hletter : shortEscapes.lookup c with
  | some letter =>
    obtain ⟨before, after, hsplit, -⟩ := List.lookup_eq_some_iff.mp hletter
    have hmem : (c, letter) ∈ shortEscapes := by
      rw [hsplit]
      exact List.mem_append_right _ List.mem_cons_self
    obtain ⟨hne, hstands⟩ := escapedLetters_shortEscapes _ hmem
    exact readPieces_letter hne hstands rest
  | none =>
    by_cases hcontrol : c.toNat < 0x20
    · have hn : c.toNat < 16 ^ 4 := by omega
      simpa [hcontrol] using readPieces_number hn rest
    · have hquote : c ≠ '"' := by
        rintro rfl
        exact absurd hletter (by decide)
      have hbackslash : c ≠ '\\' := by
        rintro rfl
        exact absurd hletter (by decide)
      simpa [hcontrol] using readPieces_plain hquote hbackslash hcontrol rest

theorem readPieces_flatMap_escape (characters rest : List Char) :
    readPieces (characters.flatMap escape ++ '"' :: rest) = some (characters.map piece, rest) := by
  induction characters with
  | nil =>
    rw [List.map_nil, List.flatMap_nil, List.nil_append, readPieces.eq_def]
    rfl
  | cons c characters ih =>
    rw [List.flatMap_cons, List.append_assoc, readPieces_escape, ih]
    rfl

/-- No control character is a surrogate, so the pieces are the characters again. -/
theorem join?_map_piece (characters : List Char) :
    join? (characters.map piece) = some characters := by
  induction characters with
  | nil => rfl
  | cons c characters ih =>
    rw [List.map_cons, piece]
    split
    · rename_i hcontrol
      have hsmall : c.toNat < 0xD800 := by
        rw [Bool.and_eq_true, decide_eq_true_eq] at hcontrol
        omega
      rw [join?.eq_def]
      simp [hsmall, ih]
    · rw [join?, ih]
      rfl

/-- **A string is read as itself**, whatever characters it holds. -/
theorem readString_quote (s : String) (rest : List Char) :
    readString (quote s ++ rest) = some (s, rest) := by
  have hpieces := readPieces_flatMap_escape s.toList rest
  simp only [quote, List.cons_append, List.append_assoc, readString]
  simp [hpieces, join?_map_piece]

/-! ### What stands behind a part -/

/-- What can stand behind a part: a text that begins with a comma or a line feed. -/
def Follows (rest : List Char) : Prop := ∃ c tail, rest = c :: tail ∧ (c = ',' ∨ c = '\n')

theorem follows_comma (tail : List Char) : Follows (',' :: tail) := ⟨',', tail, rfl, .inl rfl⟩

theorem follows_newline (level : Nat) (tail : List Char) : Follows (newline level ++ tail) :=
  ⟨'\n', _, rfl, .inr rfl⟩

/--
A part of a text is read as something: it begins with a character that is neither space
nor a closing mark, and it is read behind any space and before anything that can follow.
-/
structure Reads {α : Type} (reader : Reader α) (text : List Char) (a : α) : Prop where
  begins : ∃ c tail, text = c :: tail ∧ isSpace c = false ∧ c ≠ ']' ∧ c ≠ '\x7d'
  reads : ∀ space rest, (∀ c ∈ space, isSpace c = true) → Follows rest →
    reader (space ++ text ++ rest) = some (a, rest)

theorem isSpace_of_mem_newline {level : Nat} {c : Char} (h : c ∈ newline level) :
    isSpace c = true := by
  rw [newline, List.mem_cons, List.mem_replicate] at h
  rcases h with rfl | ⟨-, rfl⟩ <;> rfl

theorem skipSpace_append {space : List Char} (h : ∀ c ∈ space, isSpace c = true)
    (text : List Char) : skipSpace (space ++ text) = skipSpace text :=
  List.dropWhile_append_of_pos h

theorem skipSpace_cons {c : Char} (h : isSpace c = false) (rest : List Char) :
    skipSpace (c :: rest) = c :: rest := by
  rw [skipSpace, List.dropWhile_cons_of_neg (by simp [h])]

/-! ### Numbers -/

/-- A digit begins nothing but a number. -/
theorem ne_of_isDigit {c d : Char} (h : c.isDigit = true) (hd : d.isDigit = false) : c ≠ d :=
  ne_of_apply_ne Char.isDigit (by rw [h, hd]; decide)

theorem isSpace_of_isDigit {c : Char} (h : c.isDigit = true) : isSpace c = false := by
  by_contra hspace
  simp only [isSpace, Bool.not_eq_false, Bool.or_eq_true, decide_eq_true_eq] at hspace
  rcases hspace with ((rfl | rfl) | rfl) | rfl <;> exact absurd h (by decide)

theorem readWhole_toDigits (n : Nat) {rest : List Char} (h : Follows rest) :
    readWhole (Nat.toDigits 10 n ++ rest) = some (Nat.toDigits 10 n, rest) := by
  obtain ⟨c, tail, rfl, hc⟩ := h
  have hdigits : ∀ d ∈ Nat.toDigits 10 n, d.isDigit = true :=
    fun d hd => Numeral.isDigit_of_mem_toDigits hd
  have hstop : c.isDigit = false := by rcases hc with rfl | rfl <;> rfl
  have htake : (c :: tail).takeWhile Char.isDigit = [] :=
    List.takeWhile_cons_of_neg (by simp [hstop])
  have hdrop : (c :: tail).dropWhile Char.isDigit = c :: tail :=
    List.dropWhile_cons_of_neg (by simp [hstop])
  obtain ⟨first, digits, hn, -, hzero⟩ := Numeral.exists_toDigits_eq_cons n
  have hlone : ¬ (first = '0' && !digits.isEmpty) = true := by
    simpa using hzero
  rw [readWhole, List.takeWhile_append_of_pos hdigits, List.dropWhile_append_of_pos hdigits, htake,
    hdrop, List.append_nil, hn]
  exact if_neg hlone

/-- **A number is read as itself.** -/
theorem readNumber_toDigits (n : Nat) {rest : List Char} (h : Follows rest) :
    readNumber (Nat.toDigits 10 n ++ rest) = some (.number n 0, rest) := by
  have hminus : readMinus (Nat.toDigits 10 n ++ rest) = (1, Nat.toDigits 10 n ++ rest) := by
    obtain ⟨c, digits, hn, hdigit, -⟩ := Numeral.exists_toDigits_eq_cons n
    rw [hn, List.cons_append, readMinus]
    intro _ hcons
    exact ne_of_isDigit hdigit rfl (List.cons.inj hcons).1
  have hfraction : readFraction rest = some ([], rest) := by
    obtain ⟨c, tail, rfl, rfl | rfl⟩ := h <;> rfl
  have hexponent : readExponent rest = some (0, rest) := by
    obtain ⟨c, tail, rfl, rfl | rfl⟩ := h <;> rfl
  simp [readNumber, hminus, readWhole_toDigits n h, hfraction, hexponent, Numeral.read?_toDigits]

/-! ### Cells and members -/

/-- The value that a cell is read as. -/
def Value.ofCell : Cell → Value
  | .number n => .number n 0
  | .text s => .text s

theorem readWord_of_isDigit {c : Char} (h : c.isDigit = true) (rest : List Char) :
    readWord (c :: rest) = none := by
  have hn : c ≠ 'n' := ne_of_isDigit h rfl
  have ht : c ≠ 't' := ne_of_isDigit h rfl
  have hf : c ≠ 'f' := ne_of_isDigit h rfl
  simp [readWord, words, hn.symm, ht.symm, hf.symm]

/-- A value that is read from its first character on can be read where it stands. -/
theorem reads_of_readValue {depth : Nat} {text tail : List Char} {c : Char} {v : Value}
    (htext : text = c :: tail) (hsolid : isSpace c = false) (hbracket : c ≠ ']')
    (hbrace : c ≠ '\x7d')
    (h : ∀ rest, Follows rest → readValue (depth + 1) (text ++ rest) = some (v, rest)) :
    Reads (readValue (depth + 1)) text v := by
  refine ⟨⟨c, tail, htext, hsolid, hbracket, hbrace⟩, fun space rest hspace hrest => ?_⟩
  have hskip : readValue (depth + 1) (space ++ (text ++ rest))
      = readValue (depth + 1) (text ++ rest) := by
    rw [readValue, readValue, skipSpace_append hspace]
  rw [List.append_assoc, hskip]
  exact h rest hrest

theorem reads_number (depth n : Nat) :
    Reads (readValue (depth + 1)) (Nat.toDigits 10 n) (.number n 0) := by
  obtain ⟨c, digits, hn, hdigit, -⟩ := Numeral.exists_toDigits_eq_cons n
  have hbrace : c ≠ '\x7b' := ne_of_isDigit hdigit rfl
  have hbracket : c ≠ '[' := ne_of_isDigit hdigit rfl
  have hquote : c ≠ '"' := ne_of_isDigit hdigit rfl
  refine reads_of_readValue hn (isSpace_of_isDigit hdigit) (ne_of_isDigit hdigit rfl)
    (ne_of_isDigit hdigit rfl) fun rest hrest => ?_
  have hread := readNumber_toDigits n hrest
  rw [hn, List.cons_append] at hread ⊢
  rw [readValue, skipSpace_cons (isSpace_of_isDigit hdigit)]
  simp [hbrace, hbracket, hquote, readWord_of_isDigit hdigit, hread]

theorem reads_quote (depth : Nat) (s : String) :
    Reads (readValue (depth + 1)) (quote s) (.text s) := by
  refine reads_of_readValue rfl rfl (by decide) (by decide) fun rest _ => ?_
  have hread := readString_quote s rest
  rw [quote, List.cons_append, List.cons_append] at hread ⊢
  rw [readValue, skipSpace_cons rfl]
  simp only [Char.reduceEq, if_false, if_true, hread]
  rfl

/-- **A cell is read as its value.** -/
theorem reads_cell (depth : Nat) (cell : Cell) :
    Reads (readValue (depth + 1)) (Json.cell cell) (.ofCell cell) := by
  cases cell with
  | number n =>
    rw [Json.cell, Numeral.toList_toString]
    exact reads_number depth n
  | text s => exact reads_quote depth s

/-- A member is read if its value is. -/
theorem Reads.member {value : Reader Value} {text : List Char} {v : Value} (h : Reads value text v)
    (name : String) : Reads (readMember value) (member name text) (name, v) := by
  refine ⟨⟨'"', _, rfl, rfl, by decide, by decide⟩, fun space rest hspace hrest => ?_⟩
  have hname := readString_quote name (':' :: ([' '] ++ text ++ rest))
  have hvalue := h.reads [' '] rest (by simp [isSpace]) hrest
  have htext : space ++ Json.member name text ++ rest
      = space ++ (quote name ++ ':' :: ([' '] ++ text ++ rest)) := by
    simp [Json.member]
  rw [htext, readMember, skipSpace_append hspace]
  rw [quote, List.cons_append, List.cons_append] at hname ⊢
  rw [skipSpace_cons rfl, hname]
  simp only [Option.bind_eq_bind, Option.bind_some, skipSpace_cons (c := ':') rfl, hvalue]
  rfl

/-! ### Lists of parts -/

section Block

variable {α β : Type} {item : Reader α} {items : List β} {write : β → List Char} {value : β → α}
    {closing : Char}

/-- Items with commas between them, each on a line of its own. -/
def itemLines (level : Nat) (write : β → List Char) (items : List β) : List Char :=
  [','].intercalate (items.map fun b => newline level ++ write b)

theorem itemLines_singleton (level : Nat) (write : β → List Char) (b : β) :
    itemLines level write [b] = newline level ++ write b := by
  rw [itemLines, List.map_singleton, List.intercalate_singleton]

theorem itemLines_cons_cons (level : Nat) (write : β → List Char) (b other : β) (others : List β) :
    itemLines level write (b :: other :: others)
      = newline level ++ write b ++ ',' :: itemLines level write (other :: others) := by
  rw [itemLines, List.map_cons, List.map_cons, List.intercalate_cons_cons, List.append_assoc]
  rfl

/-- The first item stands first. -/
theorem exists_itemLines_cons_eq (level : Nat) (write : β → List Char) (b : β) (others : List β) :
    ∃ behind, itemLines level write (b :: others) = newline level ++ (write b ++ behind) := by
  cases others with
  | nil => exact ⟨[], by rw [itemLines_singleton, List.append_nil]⟩
  | cons other others => exact ⟨_, by rw [itemLines_cons_cons, List.append_assoc]⟩

/-- Each item takes at least the line feed before it. -/
theorem length_le_length_itemLines (level : Nat) (write : β → List Char) (items : List β) :
    items.length ≤ (itemLines level write items).length := by
  induction items with
  | nil => exact Nat.zero_le _
  | cons b others ih =>
    cases others with
    | nil =>
      rw [itemLines_singleton, newline, List.cons_append]
      exact Nat.succ_le_succ (Nat.zero_le _)
    | cons other others =>
      rw [itemLines_cons_cons, List.length_append, List.length_cons (a := b),
        List.length_cons (a := ',')]
      omega

theorem block_eq_of_ne_nil (level : Nat) (opening closing : Char) (write : β → List Char)
    (h : items ≠ []) :
    block level opening closing (items.map write)
      = opening :: (itemLines (level + 1) write items ++ newline level ++ [closing]) := by
  simp [block, itemLines, h, Function.comp_def]

/-- Items are read one after the other, up to the closing mark. -/
theorem readItems_itemLines (hitems : ∀ b ∈ items, Reads item (write b) (value b))
    (hne : items ≠ []) (hcomma : closing ≠ ',') (hsolid : isSpace closing = false) {bound : Nat}
    (hbound : items.length ≤ bound) (inner outer : Nat) (rest : List Char) :
    readItems item closing bound (itemLines inner write items ++ (newline outer ++ closing :: rest))
      = some (items.map value, rest) := by
  induction items generalizing bound with
  | nil => exact absurd rfl hne
  | cons b others ih =>
    rw [List.forall_mem_cons] at hitems
    obtain ⟨bound, rfl⟩ : ∃ less, bound = less + 1 := by
      rw [List.length_cons] at hbound
      exact ⟨bound - 1, by omega⟩
    have hspace : ∀ c ∈ newline inner, isSpace c = true := fun c hc => isSpace_of_mem_newline hc
    cases others with
    | nil =>
      have hend : skipSpace (newline outer ++ closing :: rest) = closing :: rest := by
        rw [skipSpace_append (fun c hc => isSpace_of_mem_newline hc), skipSpace_cons hsolid]
      rw [itemLines_singleton, readItems,
        hitems.1.reads _ _ hspace (follows_newline outer (closing :: rest))]
      simp [hend]
    | cons other others =>
      have hless : (other :: others).length ≤ bound := by simpa using hbound
      have hrest := ih hitems.2 (by simp) hless
      rw [itemLines_cons_cons, List.append_assoc, List.cons_append, readItems,
        hitems.1.reads _ _ hspace (follows_comma _)]
      simp [skipSpace_cons (c := ',') rfl, hcomma.symm, hrest]

/-- **A block is read as the list of its items**, of any length. -/
theorem exists_block_eq_cons (hitems : ∀ b ∈ items, Reads item (write b) (value b))
    (hclosing : closing = ']' ∨ closing = '\x7d') (level : Nat) (opening : Char) :
    ∃ body, block level opening closing (items.map write) = opening :: body ∧
      ∀ rest, readList item closing (body ++ rest) = some (items.map value, rest) := by
  have hcomma : closing ≠ ',' := by rcases hclosing with rfl | rfl <;> decide
  have hsolid : isSpace closing = false := by rcases hclosing with rfl | rfl <;> rfl
  cases items with
  | nil =>
    refine ⟨[closing], rfl, fun rest => ?_⟩
    rw [List.singleton_append, readList, skipSpace_cons hsolid]
    simp
  | cons b others =>
    refine ⟨_, block_eq_of_ne_nil level opening closing write (by simp), fun rest => ?_⟩
    rw [List.append_assoc, List.append_assoc, List.singleton_append]
    -- what is met first is the first item, not the closing mark
    obtain ⟨c, tail, hb, hc, hbracket, hbrace⟩ := (hitems b List.mem_cons_self).begins
    have hopen : c ≠ closing := by rcases hclosing with rfl | rfl <;> assumption
    have hfirst : ∀ rest, ∃ behind,
        skipSpace (itemLines (level + 1) write (b :: others) ++ rest) = c :: behind := by
      intro rest
      obtain ⟨behind, hbehind⟩ := exists_itemLines_cons_eq (level + 1) write b others
      rw [hbehind, hb, List.append_assoc, skipSpace_append (fun c hc => isSpace_of_mem_newline hc)]
      exact ⟨_, skipSpace_cons hc _⟩
    obtain ⟨behind, hbehind⟩ := hfirst (newline level ++ closing :: rest)
    have hbound : (b :: others).length
        ≤ (itemLines (level + 1) write (b :: others) ++
          (newline level ++ closing :: rest)).length := by
      rw [List.length_append]
      exact Nat.le_trans (length_le_length_itemLines _ _ _) (Nat.le_add_right _ _)
    rw [readList, hbehind,
      readItems_itemLines hitems (by simp) hcomma hsolid hbound (level + 1) level rest]
    exact if_neg hopen

end Block

section Values

variable {β : Type} {items : List β} {write : β → List Char} {depth : Nat}

/-- So a block in brackets is an array of its items. -/
theorem reads_array {value : β → Value}
    (h : ∀ b ∈ items, Reads (readValue depth) (write b) (value b)) (level : Nat) :
    Reads (readValue (depth + 1)) (block level '[' ']' (items.map write))
      (.array (items.map value)) := by
  obtain ⟨body, hbody, hread⟩ := exists_block_eq_cons h (.inl rfl) level '['
  refine reads_of_readValue hbody rfl (by decide) (by decide) fun rest _ => ?_
  rw [hbody, List.cons_append, readValue, skipSpace_cons rfl]
  simp [hread]

/-- And a block of members in braces is an object. -/
theorem reads_object {value : β → String × Value}
    (h : ∀ b ∈ items, Reads (readMember (readValue depth)) (write b) (value b)) (level : Nat) :
    Reads (readValue (depth + 1)) (block level '\x7b' '\x7d' (items.map write))
      (.object (items.map value)) := by
  obtain ⟨body, hbody, hread⟩ := exists_block_eq_cons h (.inr rfl) level '\x7b'
  refine reads_of_readValue hbody rfl (by decide) (by decide) fun rest _ => ?_
  rw [hbody, List.cons_append, readValue, skipSpace_cons rfl]
  simp [hread]

end Values

/-! ### Rows, sheets and the whole text -/

/-- The value that a row is read as. -/
def Value.ofRow (r : Row) : Value := .object (r.map fun (name, value) => (name, .ofCell value))

/-- The value that a sheet is read as, under its name. -/
def Value.ofSheet (s : Sheet) : String × Value := (s.name, .array (s.rows.map .ofRow))

theorem reads_row (depth : Nat) (r : Row) : Reads (readValue (depth + 2)) (row r) (.ofRow r) :=
  reads_object (fun entry _ => (reads_cell depth entry.2).member entry.1) 2

theorem reads_sheet (depth : Nat) (s : Sheet) :
    Reads (readMember (readValue (depth + 3))) (sheet s) (Value.ofSheet s) :=
  (reads_array (fun r _ => reads_row depth r) 1).member s.name

/-- **Sheets are read back**, however many there are and whatever they hold. -/
theorem read?_render (sheets : List Sheet) :
    read? (String.ofList (render sheets)) = some (.object (sheets.map Value.ofSheet)) := by
  -- the braces and the line feed at the end are enough for all levels
  obtain ⟨depth, hdepth⟩ : ∃ depth, (render sheets).length + 1 = depth + 4 := by
    have hlength : 3 ≤ (render sheets).length := by
      rw [render, block]
      split
      · simp
      · simp; omega
    exact ⟨(render sheets).length - 3, by omega⟩
  have hobject : Reads (readValue (depth + 4)) (block 0 '\x7b' '\x7d' (sheets.map sheet))
      (.object (sheets.map Value.ofSheet)) := reads_object (fun s _ => reads_sheet depth s) 0
  have hread := hobject.reads [] ['\n'] (by simp) (follows_newline 0 [])
  rw [List.nil_append] at hread
  rw [read?, String.toList_ofList, hdepth, render, hread]
  rfl

end Json

end UrlReservations
