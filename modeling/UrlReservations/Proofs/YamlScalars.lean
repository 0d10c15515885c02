/-
Scalars tell texts apart.

What stands behind a scalar is not part of it, and a scalar in lines has no mark where it ends.
So what is shown is that a scalar can be cut off the beginning of a text: if two texts that begin
with scalars are the same, so are the texts in the scalars and what is left behind them.  A
literal text ends where a line is not indented, which is why nothing that begins with a line break
or with the indentation may stand behind a scalar (`Ends`).

The first character tells the style, since no plain text begins with one of
the marks.  Three of the styles write a text character by character, with a
state for whether a line has just been broken; that such a text can be cut
off follows, by one induction for all of them (`Coding.write_cancel`), from
what is written for one character and from what is written at the end.
-/
import Mathlib.Data.List.TakeWhile
import UrlReservations.Proofs.Numerals
import UrlReservations.Yaml.Scalar

namespace UrlReservations.Yaml

/-- What may stand behind a scalar: nothing that would go on with it. -/
structure Ends (rest : List Char) : Prop where
  noBreak : ∀ c ∈ rest.head?, isBreak c = false
  noIndentation : ¬ indentation <+: rest

/-! ### Texts written character by character -/

/-- What stands before a mark that is not in it is cut off by the mark. -/
theorem append_cons_cancel {mark : Char} {a b u v : List Char} (ha : mark ∉ a) (hb : mark ∉ b)
    (h : a ++ mark :: u = b ++ mark :: v) : a = b ∧ u = v := by
  induction a generalizing b with
  | nil =>
    cases b with
    | nil => exact ⟨rfl, (List.cons.inj h).2⟩
    | cons d b => exact absurd ((List.cons.inj h).1 ▸ List.mem_cons_self) hb
  | cons c a ih =>
    cases b with
    | nil => exact absurd ((List.cons.inj h).1 ▸ List.mem_cons_self) ha
    | cons d b =>
      obtain ⟨rfl, hrest⟩ := List.cons.inj h
      obtain ⟨rfl, hbehind⟩ :=
        ih (List.not_mem_of_not_mem_cons ha) (List.not_mem_of_not_mem_cons hb) hrest
      exact ⟨rfl, hbehind⟩

/-- A way to write a text character by character, where the characters before may have a say. -/
structure Coding (σ : Type) where
  /-- What stands for a character. -/
  piece : σ → Char → List Char
  next : σ → Char → σ
  /-- What stands at the end. -/
  close : σ → List Char

namespace Coding

variable {σ : Type}

/-- A text from a state on. -/
def write (coding : Coding σ) : σ → List Char → List Char
  | state, [] => coding.close state
  | state, c :: rest => coding.piece state c ++ coding.write (coding.next state c) rest

/-- **A text is cut off** if each character is, and if the end is not taken for a character. -/
theorem write_cancel (coding : Coding σ) (Behind : σ → List Char → Prop)
    (hpiece : ∀ state c d u v, coding.piece state c ++ u = coding.piece state d ++ v →
      c = d ∧ u = v)
    (hclose : ∀ state c u v, Behind state u → coding.close state ++ u ≠ coding.piece state c ++ v)
    {state : σ} {a b u v : List Char} (hu : Behind (a.foldl coding.next state) u)
    (hv : Behind (b.foldl coding.next state) v)
    (h : coding.write state a ++ u = coding.write state b ++ v) : a = b ∧ u = v := by
  induction a generalizing state b with
  | nil =>
    cases b with
    | nil => exact ⟨rfl, List.append_cancel_left h⟩
    | cons d b =>
      rw [write, write, List.append_assoc] at h
      exact absurd h (hclose _ _ _ _ hu)
  | cons c a ih =>
    cases b with
    | nil =>
      rw [write, write, List.append_assoc] at h
      exact absurd h.symm (hclose _ _ _ _ hv)
    | cons d b =>
      rw [write, write, List.append_assoc, List.append_assoc] at h
      obtain ⟨rfl, hrest⟩ := hpiece _ _ _ _ _ h
      obtain ⟨rfl, hbehind⟩ := ih hu hv hrest
      exact ⟨rfl, hbehind⟩

end Coding

/-! ### Styles in lines -/

/-- Lines as they are broken, each indented unless it is empty or the first. -/
def lineByLine (character : Char → List Char) (close : Bool → List Char) : Coding Bool where
  piece broken c := if isBreak c then [c] else (if broken then indentation else []) ++ character c
  next _ c := isBreak c
  close := close

/-- What is written in single quotes. -/
def inSingleQuotes : Coding Bool :=
  lineByLine (fun c => if c = '\'' then ['\'', '\''] else [c])
    (fun broken => (if broken then indentation else []) ++ ['\''])

/-- What is written below a mark. -/
def inLines : Coding Bool := lineByLine (fun c => [c]) (fun _ => [])

theorem singleQuoted_go_eq_write (broken : Bool) (text : List Char) :
    singleQuoted.go broken text = inSingleQuotes.write broken text := by
  induction text generalizing broken with
  | nil => rfl
  | cons c rest ih =>
    rw [singleQuoted.go, Coding.write]
    by_cases hbreak : isBreak c = true
    · simp [inSingleQuotes, lineByLine, hbreak, ih]
    · simp [inSingleQuotes, lineByLine, hbreak, ih]

theorem literalLines_eq_write (atStart : Bool) (text : List Char) :
    literalLines atStart text = inLines.write atStart text := by
  induction text generalizing atStart with
  | nil => rfl
  | cons c rest ih =>
    rw [literalLines, Coding.write]
    by_cases hbreak : isBreak c = true
    · simp [inLines, lineByLine, hbreak, ih]
    · simp [inLines, lineByLine, hbreak, ih]

section LineByLine

variable {character : Char → List Char} {close : Bool → List Char}

variable (close) in
/-- What stands for a character begins with a line break only if the character is one. -/
theorem exists_lineByLine_piece_eq_cons (hbegins : ∀ c, ∃ tail, character c = c :: tail)
    (broken : Bool) (c : Char) :
    ∃ first tail, (lineByLine character close).piece broken c = first :: tail ∧
      isBreak first = isBreak c := by
  obtain ⟨tail, htail⟩ := hbegins c
  by_cases hbreak : isBreak c = true
  · exact ⟨c, [], by simp [lineByLine, hbreak], rfl⟩
  · cases broken with
    | false => exact ⟨c, tail, by simp [lineByLine, hbreak, htail], rfl⟩
    | true =>
      refine ⟨' ', List.replicate 3 ' ' ++ character c, ?_, ?_⟩
      · simp [lineByLine, hbreak, indentation, List.replicate_succ]
      · rw [Bool.not_eq_true] at hbreak
        rw [hbreak]
        rfl

theorem lineByLine_piece_cancel (hbegins : ∀ c, ∃ tail, character c = c :: tail)
    (hcharacter : ∀ c d u v, character c ++ u = character d ++ v → c = d ∧ u = v) (broken : Bool)
    (c d : Char) (u v : List Char)
    (h : (lineByLine character close).piece broken c ++ u
      = (lineByLine character close).piece broken d ++ v) : c = d ∧ u = v := by
  have hsame : isBreak c = isBreak d := by
    obtain ⟨first, tail, hc, hfirst⟩ := exists_lineByLine_piece_eq_cons close hbegins broken c
    obtain ⟨first', tail', hd, hfirst'⟩ := exists_lineByLine_piece_eq_cons close hbegins broken d
    rw [hc, hd] at h
    rw [← hfirst, ← hfirst', (List.cons.inj h).1]
  by_cases hbreak : isBreak c = true
  · simpa [lineByLine, hbreak, ← hsame] using h
  · simp only [lineByLine, ← hsame, hbreak, if_false, List.append_assoc, List.append_cancel_left_eq,
      Bool.false_eq_true] at h
    exact hcharacter c d u v h

end LineByLine

/-! ### Single quotes -/

theorem exists_quoted_eq_cons (c : Char) :
    ∃ tail, (if c = '\'' then ['\'', '\''] else [c]) = c :: tail := by
  by_cases hquote : c = '\''
  · exact ⟨['\''], by rw [if_pos hquote, hquote]⟩
  · exact ⟨[], by rw [if_neg hquote]⟩

theorem quoted_cancel (c d : Char) (u v : List Char)
    (h : (if c = '\'' then ['\'', '\''] else [c]) ++ u
      = (if d = '\'' then ['\'', '\''] else [d]) ++ v) : c = d ∧ u = v := by
  by_cases hc : c = '\'' <;> by_cases hd : d = '\'' <;> grind

/-- A closing quote is not doubled, since a line feed stands behind it. -/
theorem inSingleQuotes_close_ne (broken : Bool) (c : Char) (u v : List Char) :
    inSingleQuotes.close broken ++ '\n' :: u ≠ inSingleQuotes.piece broken c ++ v := by
  intro hsame
  by_cases hbreak : isBreak c = true
  · -- what is written at the end begins with the indentation or the quote
    have hpiece : inSingleQuotes.piece broken c = [c] := if_pos hbreak
    rw [hpiece] at hsame
    cases broken with
    | false =>
      obtain rfl : '\'' = c := (List.cons.inj hsame).1
      exact absurd hbreak (by decide)
    | true =>
      obtain rfl : ' ' = c := (List.cons.inj hsame).1
      exact absurd hbreak (by decide)
  · have hpiece : inSingleQuotes.piece broken c
        = (if broken then indentation else []) ++ (if c = '\'' then ['\'', '\''] else [c]) :=
      if_neg hbreak
    have hclose : inSingleQuotes.close broken = (if broken then indentation else []) ++ ['\''] :=
      rfl
    rw [hpiece, hclose, List.append_assoc, List.append_assoc] at hsame
    have hquote := List.append_cancel_left hsame
    by_cases hc : c = '\''
    · rw [if_pos hc] at hquote
      exact absurd (List.cons.inj (List.cons.inj hquote).2).1 (by decide)
    · rw [if_neg hc] at hquote
      exact hc (List.cons.inj hquote).1.symm

/-- **A text in single quotes is cut off** before a line feed. -/
theorem singleQuoted_cancel {a b u v : List Char}
    (h : singleQuoted a ++ '\n' :: u = singleQuoted b ++ '\n' :: v) : a = b ∧ u = v := by
  rw [singleQuoted, singleQuoted, List.cons_append, List.cons_append, singleQuoted_go_eq_write,
    singleQuoted_go_eq_write] at h
  have hclose : ∀ broken c u v, (∃ tail, u = '\n' :: tail) →
      inSingleQuotes.close broken ++ u ≠ inSingleQuotes.piece broken c ++ v := by
    rintro broken c _ v ⟨tail, rfl⟩
    exact inSingleQuotes_close_ne broken c tail v
  obtain ⟨rfl, hbehind⟩ := inSingleQuotes.write_cancel (fun _ u => ∃ tail, u = '\n' :: tail)
    (lineByLine_piece_cancel exists_quoted_eq_cons quoted_cancel) hclose ⟨u, rfl⟩ ⟨v, rfl⟩
    (List.cons.inj h).2
  exact ⟨rfl, (List.cons.inj hbehind).2⟩

/-! ### Literal texts -/

/-- A text with a line feed at its end, unless it ends in a line break already. -/
def withLastBreak (text : List Char) : List Char :=
  text ++ if text.getLast?.any isBreak then [] else ['\n']

/-- Whatever is written, the last line is complete. -/
theorem foldl_next_withLastBreak (text : List Char) :
    (withLastBreak text).foldl inLines.next true = true := by
  rw [withLastBreak]
  by_cases hbreak : text.getLast?.any isBreak = true
  · obtain ⟨last, hlast, hc⟩ := (Option.any_eq_true _ _).mp hbreak
    obtain ⟨before, rfl⟩ := List.getLast?_eq_some_iff.mp hlast
    rw [if_pos hbreak, List.append_nil, List.foldl_append]
    exact hc
  · rw [if_neg hbreak, List.foldl_append]
    rfl

theorem write_inLines_append_newline (state : Bool) (text : List Char) :
    inLines.write state text ++ ['\n'] = inLines.write state (text ++ ['\n']) := by
  induction text generalizing state with
  | nil => rfl
  | cons c rest ih => rw [List.cons_append, Coding.write, Coding.write, List.append_assoc, ih]

theorem write_inLines_withLastBreak (text : List Char) :
    inLines.write true text ++ (if text.getLast?.any isBreak then [] else ['\n'])
      = inLines.write true (withLastBreak text) := by
  rw [withLastBreak]
  split
  · rw [List.append_nil, List.append_nil]
  · exact write_inLines_append_newline true text

/-- The lines of a literal text are cut off where the next line is not one of them. -/
theorem lines_cancel {a b u v : List Char} (hu : Ends u) (hv : Ends v)
    (h : inLines.write true (withLastBreak a) ++ u = inLines.write true (withLastBreak b) ++ v) :
    withLastBreak a = withLastBreak b ∧ u = v := by
  have hcharacter : ∀ c d : Char, ∀ u v, [c] ++ u = [d] ++ v → c = d ∧ u = v :=
    fun c d u v h => List.cons.inj h
  have hclose : ∀ state c u v, state = true ∧ Ends u →
      inLines.close state ++ u ≠ inLines.piece state c ++ v := by
    rintro _ c u v ⟨rfl, hends⟩ hsame
    rw [show inLines.close true ++ u = u from rfl] at hsame
    by_cases hbreak : isBreak c = true
    · have hfirst := hends.noBreak c (by rw [hsame]; simp [inLines, lineByLine, hbreak])
      exact Bool.noConfusion (hfirst.symm.trans hbreak)
    · exact hends.noIndentation ⟨[c] ++ v, by rw [hsame]; simp [inLines, lineByLine, hbreak]⟩
  exact inLines.write_cancel (fun state u => state = true ∧ Ends u)
    (lineByLine_piece_cancel (fun c => ⟨[], rfl⟩) hcharacter) hclose
    ⟨foldl_next_withLastBreak a, hu⟩ ⟨foldl_next_withLastBreak b, hv⟩ h

theorem mem_chomping (text : List Char) :
    '-' ∈ chomping text ↔ text.getLast?.any isBreak = false := by
  rw [chomping, ← List.head?_reverse]
  cases text.reverse with
  | nil => simp
  | cons last earlier =>
    cases hbreak : isBreak last with
    | false => simp [hbreak]
    | true => cases earlier with
      | nil => simp [hbreak]
      | cons c earlier => cases hbefore : isBreak c <;> simp [hbreak, hbefore]

/-- The mark tells whether the text has a line break at its end. -/
theorem mem_literalMark (text : List Char) :
    '-' ∈ literalMark text ↔ text.getLast?.any isBreak = false := by
  rw [← mem_chomping, literalMark]
  split <;> simp

theorem newline_not_mem_literalMark (text : List Char) : '\n' ∉ literalMark text := by
  have hchomping : '\n' ∉ chomping text := by
    rw [chomping]
    repeat' split
    all_goals simp
  rw [literalMark]
  split <;> simp [hchomping]

/--
**A literal text is cut off**: its mark and its lines are, and the two together say what it is.
-/
theorem literal_cancel {a b u v : List Char} (hu : Ends u) (hv : Ends v)
    (h : literalMark a ++ '\n' :: (inLines.write true (withLastBreak a) ++ u)
      = literalMark b ++ '\n' :: (inLines.write true (withLastBreak b) ++ v)) : a = b ∧ u = v := by
  obtain ⟨hmark, hlines⟩ :=
    append_cons_cancel (newline_not_mem_literalMark a) (newline_not_mem_literalMark b) h
  obtain ⟨htext, hbehind⟩ := lines_cancel hu hv hlines
  refine ⟨?_, hbehind⟩
  have hlast : a.getLast?.any isBreak = b.getLast?.any isBreak := by
    rw [Bool.eq_iff_iff, ← not_iff_not, Bool.not_eq_true, Bool.not_eq_true, ← mem_literalMark,
      ← mem_literalMark, hmark]
  rw [withLastBreak, withLastBreak, hlast] at htext
  exact List.append_cancel_right htext

/-! ### Double quotes -/

/-- The letters that announce a number, each with how many digits it has. -/
def numberedEscapes : List (Char × Nat) := [('x', 2), ('u', 4), ('U', 8)]

/-- The character that an escape stands for, and what is left. -/
def unescape : List Char → Option (Char × List Char)
  | [] => none
  | '\\' :: letter :: rest =>
    match numberedEscapes.lookup letter with
    | some width => (Numeral.read? 16 (rest.take width)).map fun n =>
      (Char.ofNat n, rest.drop width)
    | none => (shortEscapes.find? (·.2 = letter)).map fun entry => (entry.1, rest)
  | c :: rest => some (c, rest)

theorem unescape_shortEscapes : ∀ entry ∈ shortEscapes,
    numberedEscapes.lookup entry.2 = none ∧ shortEscapes.find? (·.2 = entry.2) = some entry := by
  decide

theorem unescape_number {letter c : Char} {width : Nat}
    (hletter : numberedEscapes.lookup letter = some width) (hwidth : 0 < width)
    (hc : c.toNat < 16 ^ width) (rest : List Char) :
    unescape ('\\' :: letter :: (Numeral.hex Numeral.upperDigit width c.toNat ++ rest))
      = some (c, rest) := by
  have hlength : (Numeral.hex Numeral.upperDigit width c.toNat).length = width :=
    Numeral.length_hex _ _ _
  have hread := Numeral.read?_hex Numeral.digit?_upperDigit hwidth hc
  simp [unescape, hletter, List.take_left' hlength, List.drop_left' hlength, hread]

/--
**No escape is taken for another one**, and a character that stands for itself not for an escape.
-/
theorem unescape_escape (c : Char) (rest : List Char) :
    unescape (escape c ++ rest) = some (c, rest) := by
  unfold escape
  cases hletter : shortEscapes.lookup c with
  | some letter =>
    obtain ⟨before, after, hsplit, -⟩ := List.lookup_eq_some_iff.mp hletter
    have hmem : (c, letter) ∈ shortEscapes := by
      rw [hsplit]
      exact List.mem_append_right _ List.mem_cons_self
    obtain ⟨hnumbered, hfind⟩ : numberedEscapes.lookup letter = none ∧
        shortEscapes.find? (·.2 = letter) = some (c, letter) := unescape_shortEscapes _ hmem
    simp [unescape, hnumbered, hfind]
  | none =>
    have hbackslash : c ≠ '\\' := by
      rintro rfl
      exact absurd hletter (by decide)
    have hbound : c.toNat < 16 ^ 8 := c.val.toNat_lt
    dsimp only
    split
    · rw [List.singleton_append, unescape.eq_def]
      simp [hbackslash]
    split
    · exact unescape_number (by decide) (by decide) (by omega) rest
    split
    · exact unescape_number (by decide) (by decide) (by omega) rest
    · exact unescape_number (by decide) (by decide) hbound rest

theorem escape_cancel (c d : Char) (u v : List Char) (h : escape c ++ u = escape d ++ v) :
    c = d ∧ u = v := by
  have hread : unescape (escape c ++ u) = unescape (escape d ++ v) := by rw [h]
  rw [unescape_escape, unescape_escape] at hread
  exact Prod.mk.inj (Option.some.inj hread)

/-- What is written in double quotes. -/
def inDoubleQuotes : Coding Unit where
  piece _ c := escape c
  next _ _ := ()
  close _ := ['"']

theorem doubleQuoted_eq_write (text : List Char) :
    doubleQuoted text = '"' :: inDoubleQuotes.write () text := by
  rw [doubleQuoted, List.cons_append]
  congr 1
  induction text with
  | nil => rfl
  | cons c rest ih =>
    rw [List.flatMap_cons, List.append_assoc, ih]
    rfl

theorem doubleQuoted_cancel {a b u v : List Char} (h : doubleQuoted a ++ u = doubleQuoted b ++ v) :
    a = b ∧ u = v := by
  have hclose : ∀ c u v, ['"'] ++ u ≠ escape c ++ v := by
    intro c u v hsame
    -- what begins with a quote is no escape, and a quote in the text would have been one
    have hread : unescape (['"'] ++ u) = unescape (escape c ++ v) := by rw [hsame]
    rw [unescape_escape] at hread
    obtain ⟨rfl, -⟩ := Prod.mk.inj (Option.some.inj hread)
    exact absurd (List.cons.inj hsame).1 (by decide)
  rw [doubleQuoted_eq_write, doubleQuoted_eq_write, List.cons_append, List.cons_append] at h
  exact inDoubleQuotes.write_cancel (fun _ _ => True) (fun _ => escape_cancel)
    (fun _ c u v _ => hclose c u v) trivial trivial (List.cons.inj h).2

/-! ### The style of a scalar -/

/-- The style that the first character announces. -/
def styleMarked : List Char → Style
  | '\'' :: _ => .singleQuoted
  | '"' :: _ => .doubleQuoted
  | '|' :: _ => .literal
  | _ => .plain

/-- What a plain text is not. -/
theorem plain_of_styleOf {text : List Char} (h : styleOf text = .plain) :
    allowsPlain text = true ∧ isAmbiguous text = false := by
  rw [styleOf, wantedStyle] at h
  grind

theorem newline_not_mem_of_allowsPlain {text : List Char} (h : allowsPlain text = true) :
    '\n' ∉ text := by
  intro hmem
  simp only [allowsPlain, Bool.and_eq_true, List.all_eq_true] at h
  have hbreak := h.1.1.2 _ hmem
  exact absurd hbreak.2 (by decide)

theorem styleMarked_of_allowsPlain {text : List Char} (h : allowsPlain text = true)
    (rest : List Char) : styleMarked (text ++ '\n' :: rest) = .plain := by
  cases text with
  | nil => rfl
  | cons c text =>
    have hindicator : indicators.contains c = false := by
      simp only [allowsPlain, beginsAsMarkup, Bool.and_eq_true, Bool.not_eq_true',
        Bool.or_eq_false_iff] at h
      exact h.1.2.2.1
    rw [List.cons_append, styleMarked]
    all_goals
      intro _ hsame
      obtain ⟨rfl, -⟩ := List.cons.inj hsame
      exact absurd hindicator (by decide)

/-- **The first character tells the style.** -/
theorem styleMarked_scalarLine (s : String) (rest : List Char) :
    styleMarked (scalarLine s ++ rest) = styleOf s.toList := by
  cases hstyle : styleOf s.toList with
  | plain =>
    have h := styleMarked_of_allowsPlain (plain_of_styleOf hstyle).1 rest
    simpa [scalarLine, hstyle, write] using h
  | singleQuoted => simp [scalarLine, hstyle, write, singleQuoted, styleMarked]
  | doubleQuoted => simp [scalarLine, hstyle, write, doubleQuoted, styleMarked]
  | literal => simp [scalarLine, hstyle, write, literal, literalMark, styleMarked]

theorem scalarLine_append_of_ne_literal {s : String} (h : styleOf s.toList ≠ .literal)
    (rest : List Char) :
    scalarLine s ++ rest = write s.toList (styleOf s.toList) ++ '\n' :: rest := by
  simp [scalarLine, h]

theorem scalarLine_append_of_literal {s : String} (h : styleOf s.toList = .literal)
    (rest : List Char) :
    scalarLine s ++ rest = literalMark s.toList ++
      '\n' :: (inLines.write true (withLastBreak s.toList) ++ rest) := by
  rw [scalarLine, ← write_inLines_withLastBreak]
  simp [h, write, literal, literalLines_eq_write]

/-- **A scalar is cut off**, whatever the text in it and whichever its style. -/
theorem scalarLine_cancel {s t : String} {u v : List Char} (hu : Ends u) (hv : Ends v)
    (h : scalarLine s ++ u = scalarLine t ++ v) : s = t ∧ u = v := by
  have hstyle : styleOf t.toList = styleOf s.toList := by
    rw [← styleMarked_scalarLine s u, ← styleMarked_scalarLine t v, h]
  suffices htexts : s.toList = t.toList ∧ u = v from ⟨String.toList_inj.mp htexts.1, htexts.2⟩
  by_cases hs : styleOf s.toList = .literal
  · rw [scalarLine_append_of_literal hs, scalarLine_append_of_literal (hstyle.trans hs)] at h
    exact literal_cancel hu hv h
  rw [scalarLine_append_of_ne_literal hs, scalarLine_append_of_ne_literal (hstyle ▸ hs),
    hstyle] at h
  cases hplain : styleOf s.toList with
  | plain =>
    have hnewline : ∀ {text : List Char}, styleOf text = .plain → '\n' ∉ text :=
      fun h => newline_not_mem_of_allowsPlain (plain_of_styleOf h).1
    rw [hplain] at h
    exact append_cons_cancel (hnewline hplain) (hnewline (hstyle.trans hplain)) h
  | singleQuoted =>
    rw [hplain] at h
    exact singleQuoted_cancel h
  | doubleQuoted =>
    rw [hplain] at h
    obtain ⟨htexts, hbehind⟩ := doubleQuoted_cancel h
    exact ⟨htexts, (List.cons.inj hbehind).2⟩
  | literal => exact absurd hplain hs

/-! ### Numbers -/

theorem isFiniteDecimal_toDigits {n : Nat} (hn : (Nat.toDigits 10 n).length ≤ 300) :
    isFiniteDecimal (Nat.toDigits 10 n) = true := by
  have hdigits : ∀ c ∈ Nat.toDigits 10 n, c.isDigit = true :=
    fun c hc => Numeral.isDigit_of_mem_toDigits hc
  have hsign : splitSign (Nat.toDigits 10 n) = (none, Nat.toDigits 10 n) := by
    rw [splitSign]
    all_goals
      intro rest hsame
      exact absurd (hdigits _ (hsame ▸ List.mem_cons_self)) (by decide)
  have hread : Decimal.read? (Nat.toDigits 10 n) = some ⟨n, 0⟩ := by
    simp [Decimal.read?, List.takeWhile_eq_self_iff.mpr hdigits, Numeral.read?_toDigits]
  have hmagnitude : (toString n).length ≤ 300 := by
    rwa [← String.length_toList, Numeral.toList_toString]
  have hfinite : Decimal.isFinite ⟨n, 0⟩ = true := by
    have hsmall : (0 : Int) + (toString n).length ≤ 300 := by omega
    rw [Decimal.isFinite]
    dsimp only
    rw [if_pos (by rw [decide_eq_true hsmall, Bool.or_true])]
  rw [isFiniteDecimal, hsign, hread]
  exact hfinite

/-- The digits of a number are quoted when they are a text. -/
theorem isAmbiguous_toDigits {n : Nat} (hn : (Nat.toDigits 10 n).length ≤ 300) :
    isAmbiguous (Nat.toDigits 10 n) = true := by
  simp [isAmbiguous, isNumber, isFiniteDecimal_toDigits hn]

end UrlReservations.Yaml
