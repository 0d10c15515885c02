/-
YAML tells records apart.

The parts of the output are nested as they are in the records: cells in members, members in rows,
rows in sheets.  Of each kind of part it is shown that it can be cut off the beginning of a text
(`Cancels`), from the inside to the outside, and each time in the same way: what may stand behind
a part is told by its first character, and that is enough to see where a list of parts ends.  A
member that is left out is therefore noticed by the name that stands in its place, and a row that
goes on by its indentation.

This holds of any sheets with names of letters, and of numbers with few enough digits to be
numbers in YAML.  Only the end goes back to records, whose names are of that kind and whose
numbers are small.
-/
import UrlReservations.Format
import UrlReservations.Proofs.YamlScalars

namespace UrlReservations

namespace Yaml

/-! ### Parts that are cut off -/

section Cancels

variable {α : Type} {write : α → List Char} {Valid : α → Prop} {Behind Last : List Char → Prop}

/-- What is written can be cut off the beginning of a text: it says what it is and where it ends. -/
structure Cancels (write : α → List Char) (Valid : α → Prop) (Behind : List Char → Prop) :
    Prop where
  cut : ∀ {a b u v}, Valid a → Valid b → Behind u → Behind v →
    write a ++ u = write b ++ v → a = b ∧ u = v

/--
Behind each part of a list stands another part or whatever stands
behind the list, and the two can be told from each other.
-/
structure Separated (write : α → List Char) (Valid : α → Prop) (Behind Last : List Char → Prop) :
    Prop where
  last : ∀ {u}, Last u → Behind u
  part : ∀ {a}, Valid a → ∀ u, Behind (write a ++ u)
  apart : ∀ {a}, Valid a → ∀ u, ¬ Last (write a ++ u)

theorem Separated.behind (h : Separated write Valid Behind Last) {parts : List α}
    (hparts : ∀ a ∈ parts, Valid a) {u : List Char} (hu : Last u) :
    Behind (parts.flatMap write ++ u) := by
  cases parts with
  | nil => exact h.last hu
  | cons a rest =>
    rw [List.flatMap_cons, List.append_assoc]
    exact h.part (hparts a List.mem_cons_self) _

/-- **A list of parts is cut off** if its parts are. -/
theorem Separated.cancels (h : Separated write Valid Behind Last)
    (hpart : Cancels write Valid Behind) :
    Cancels (List.flatMap write) (∀ a ∈ ·, Valid a) Last := by
  refine ⟨fun {parts others u v} hparts hothers hu hv hsame => ?_⟩
  induction parts generalizing others with
  | nil =>
    cases others with
    | nil => exact ⟨rfl, hsame⟩
    | cons b others =>
      rw [List.flatMap_nil, List.nil_append, List.flatMap_cons, List.append_assoc] at hsame
      exact absurd (hsame ▸ hu) (h.apart (hothers b List.mem_cons_self) _)
  | cons a parts ih =>
    cases others with
    | nil =>
      rw [List.flatMap_nil, List.nil_append, List.flatMap_cons, List.append_assoc] at hsame
      exact absurd (hsame ▸ hv) (h.apart (hparts a List.mem_cons_self) _)
    | cons b others =>
      rw [List.forall_mem_cons] at hparts hothers
      rw [List.flatMap_cons, List.flatMap_cons, List.append_assoc, List.append_assoc] at hsame
      obtain ⟨rfl, hrest⟩ :=
        hpart.cut hparts.1 hothers.1 (h.behind hparts.2 hu) (h.behind hothers.2 hv) hsame
      obtain ⟨rfl, hend⟩ := ih hparts.2 hothers.2 hrest
      exact ⟨rfl, hend⟩

end Cancels

/-! ### What stands behind a part -/

/-- The characters of names. -/
def isNameChar (c : Char) : Bool := c.isAlphanum || c = '_'

/-- A name: at least one character, and only those of names. -/
def IsName (name : String) : Prop := name.toList ≠ [] ∧ ∀ c ∈ name.toList, isNameChar c = true

instance (name : String) : Decidable (IsName name) :=
  decidable_of_iff ((!name.toList.isEmpty && name.toList.all isNameChar) = true) (by simp [IsName])

/-- What stands behind a sheet: a name or nothing. -/
def AtName (rest : List Char) : Prop := ∀ c ∈ rest.head?, isNameChar c = true

/-- What stands behind a row: another row, a name or nothing. -/
def AtRow (rest : List Char) : Prop := ∀ c ∈ rest.head?, c = '-' ∨ isNameChar c = true

theorem isBreak_of_isNameChar {c : Char} (h : isNameChar c = true) : isBreak c = false := by
  by_contra hbreak
  simp only [isBreak, Bool.not_eq_false, Bool.or_eq_true, decide_eq_true_eq] at hbreak
  rcases hbreak with (((rfl | rfl) | rfl) | rfl) | rfl <;> exact absurd h (by decide)

theorem AtName.atRow {rest : List Char} (h : AtName rest) : AtRow rest := fun c hc => .inr (h c hc)

theorem not_atRow_space (rest : List Char) : ¬ AtRow (' ' :: rest) := by
  intro h
  rcases h ' ' rfl with hdash | hname
  · exact absurd hdash (by decide)
  · exact absurd hname (by decide)

theorem AtRow.ends {rest : List Char} (h : AtRow rest) : Ends rest := by
  refine ⟨fun c hc => ?_, ?_⟩
  · rcases h c hc with rfl | hname
    · rfl
    · exact isBreak_of_isNameChar hname
  · rintro ⟨tail, rfl⟩
    exact not_atRow_space _ h

theorem IsName.exists_eq_cons {name : String} (h : IsName name) :
    ∃ c tail, name.toList = c :: tail ∧ isNameChar c = true := by
  obtain ⟨c, tail, hname⟩ := List.exists_cons_of_ne_nil h.1
  exact ⟨c, tail, hname, h.2 c (hname ▸ List.mem_cons_self)⟩

theorem IsName.atName {name : String} (h : IsName name) (rest : List Char) :
    AtName (name.toList ++ rest) := by
  obtain ⟨c, tail, hname, hc⟩ := h.exists_eq_cons
  intro d hd
  rw [hname] at hd
  rwa [← Option.some.inj hd]

/-- A colon ends a name. -/
theorem IsName.cancel {name other : String} (hname : IsName name) (hother : IsName other)
    {u v : List Char} (h : name.toList ++ ':' :: u = other.toList ++ ':' :: v) :
    name = other ∧ u = v := by
  have hcolon : ∀ {name : String}, IsName name → ':' ∉ name.toList :=
    fun h hmem => absurd (h.2 _ hmem) (by decide)
  obtain ⟨htexts, hbehind⟩ := append_cons_cancel (hcolon hname) (hcolon hother) h
  exact ⟨String.toList_inj.mp htexts, hbehind⟩

/-! ### Cells and members -/

/-- A number with too many digits is no number in YAML; a text can be any. -/
def CellFits : Cell → Prop
  | .number n => (Nat.toDigits 10 n).length ≤ 300
  | .text _ => True

/-- A cell with the line feed that ends it. -/
def line : Cell → List Char
  | .number n => Nat.toDigits 10 n ++ ['\n']
  | .text s => scalarLine s

theorem member_eq (name : String) (cell : Cell) :
    member name cell = name.toList ++ ':' :: ' ' :: line cell := by
  cases cell with
  | number n => simp [member, line]
  | text s => simp [member, line]

theorem newline_not_mem_toDigits (n : Nat) : '\n' ∉ Nat.toDigits 10 n :=
  fun h => absurd (Numeral.isDigit_of_mem_toDigits h) (by decide)

theorem styleMarked_toDigits (n : Nat) (rest : List Char) :
    styleMarked (Nat.toDigits 10 n ++ rest) = .plain := by
  obtain ⟨c, digits, hn, hc, -⟩ := Numeral.exists_toDigits_eq_cons n
  rw [hn, List.cons_append, styleMarked]
  all_goals
    intro _ hsame
    obtain ⟨rfl, -⟩ := List.cons.inj hsame
    exact absurd hc (by decide)

/-- A number is not taken for a text: a text of the same digits is quoted. -/
theorem number_ne_scalarLine {n : Nat} (hn : (Nat.toDigits 10 n).length ≤ 300) (s : String)
    (u v : List Char) : Nat.toDigits 10 n ++ '\n' :: u ≠ scalarLine s ++ v := by
  intro hsame
  have hplain : styleOf s.toList = .plain := by
    rw [← styleMarked_scalarLine s v, ← hsame, styleMarked_toDigits]
  obtain ⟨hallowed, hclear⟩ := plain_of_styleOf hplain
  rw [scalarLine_append_of_ne_literal (by rw [hplain]; decide), hplain] at hsame
  obtain ⟨htext, -⟩ :=
    append_cons_cancel (newline_not_mem_toDigits n) (newline_not_mem_of_allowsPlain hallowed) hsame
  rw [← htext, isAmbiguous_toDigits hn] at hclear
  exact Bool.noConfusion hclear

theorem line_cancels : Cancels line CellFits Ends := by
  refine ⟨fun {a b u v} ha hb hu hv hsame => ?_⟩
  cases a with
  | number m =>
    cases b with
    | number n =>
      simp only [line, List.append_assoc, List.singleton_append] at hsame
      obtain ⟨hdigits, hbehind⟩ :=
        append_cons_cancel (newline_not_mem_toDigits m) (newline_not_mem_toDigits n) hsame
      exact ⟨by rw [Numeral.toDigits_inj hdigits], hbehind⟩
    | text t =>
      simp only [line, List.append_assoc, List.singleton_append] at hsame
      exact absurd hsame (number_ne_scalarLine ha t u v)
  | text s =>
    cases b with
    | number n =>
      simp only [line, List.append_assoc, List.singleton_append] at hsame
      exact absurd hsame.symm (number_ne_scalarLine hb s v u)
    | text t =>
      obtain ⟨rfl, hbehind⟩ := scalarLine_cancel hu hv hsame
      exact ⟨rfl, hbehind⟩

/-- A name and a cell that can be told from others. -/
def EntryFits (entry : String × Cell) : Prop := IsName entry.1 ∧ CellFits entry.2

theorem entryFits_text {name : String} (h : IsName name) (s : String) : EntryFits (name, .text s) :=
  ⟨h, trivial⟩

theorem entryFits_number {name : String} {n : Nat} (h : IsName name)
    (hn : (Nat.toDigits 10 n).length ≤ 300) : EntryFits (name, .number n) := ⟨h, hn⟩

theorem member_cancels :
    Cancels (fun entry : String × Cell => member entry.1 entry.2) EntryFits Ends := by
  refine ⟨?_⟩
  rintro ⟨name, a⟩ ⟨other, b⟩ u v ha hb hu hv hsame
  simp only [member_eq, List.append_assoc, List.cons_append] at hsame
  obtain ⟨rfl, hvalue⟩ := ha.1.cancel hb.1 hsame
  obtain ⟨rfl, hbehind⟩ := line_cancels.cut ha.2 hb.2 hu hv (List.cons.inj hvalue).2
  exact ⟨rfl, hbehind⟩

/-! ### Rows and sheets -/

/-- A member that is not the first one of its row. -/
def laterMember (entry : String × Cell) : List Char := [' ', ' '] ++ member entry.1 entry.2

theorem laterMember_cancels : Cancels laterMember EntryFits Ends := by
  refine ⟨fun {a b u v} ha hb hu hv hsame => ?_⟩
  rw [laterMember, laterMember, List.append_assoc, List.append_assoc] at hsame
  exact member_cancels.cut ha hb hu hv (List.append_cancel_left hsame)

/-- A member is indented, but not as much as a scalar that goes on. -/
theorem ends_laterMember {entry : String × Cell} (h : EntryFits entry) (rest : List Char) :
    Ends (laterMember entry ++ rest) := by
  obtain ⟨c, tail, hname, hc⟩ := h.1.exists_eq_cons
  have hspace : c ≠ ' ' := by
    rintro rfl
    exact absurd hc (by decide)
  rw [laterMember, member_eq, hname]
  refine ⟨?_, ?_⟩
  · rintro _ ⟨⟩
    rfl
  · simp [indentation, List.replicate_succ, List.cons_prefix_cons, hspace.symm]

/-- A row that can be told from others. -/
def RowFits (r : Row) : Prop := r ≠ [] ∧ ∀ entry ∈ r, EntryFits entry

theorem separated_laterMember : Separated laterMember EntryFits Ends AtRow where
  last := AtRow.ends
  part := ends_laterMember
  apart _ _ := not_atRow_space _

theorem row_cons_append (entry : String × Cell) (later : Row) (rest : List Char) :
    row (entry :: later) ++ rest
      = ['-', ' '] ++ (member entry.1 entry.2 ++ (later.flatMap laterMember ++ rest)) := by
  rw [row, List.append_assoc, List.append_assoc]
  rfl

theorem row_cancels : Cancels row RowFits AtRow := by
  refine ⟨fun {a b u v} ha hb hu hv hsame => ?_⟩
  obtain ⟨first, later, rfl⟩ := List.exists_cons_of_ne_nil ha.1
  obtain ⟨first', later', rfl⟩ := List.exists_cons_of_ne_nil hb.1
  obtain ⟨hfirst, hlater⟩ := List.forall_mem_cons.mp ha.2
  obtain ⟨hfirst', hlater'⟩ := List.forall_mem_cons.mp hb.2
  rw [row_cons_append, row_cons_append] at hsame
  obtain ⟨rfl, hrest⟩ := member_cancels.cut hfirst hfirst' (separated_laterMember.behind hlater hu)
    (separated_laterMember.behind hlater' hv) (List.append_cancel_left hsame)
  obtain ⟨rfl, hend⟩ :=
    (separated_laterMember.cancels laterMember_cancels).cut hlater hlater' hu hv hrest
  exact ⟨rfl, hend⟩

theorem RowFits.head?_append {r : Row} (h : RowFits r) (rest : List Char) :
    (row r ++ rest).head? = some '-' := by
  cases r with
  | nil => exact absurd rfl h.1
  | cons entry entries => rfl

theorem separated_row : Separated row RowFits AtRow AtName where
  last := AtName.atRow
  part h u c hc := by
    rw [h.head?_append u] at hc
    exact .inl (Option.some.inj hc).symm
  apart h u hname := absurd (hname '-' (h.head?_append u)) (by decide)

/-- A sheet that can be told from others. -/
def SheetFits (s : Sheet) : Prop := IsName s.name ∧ ∀ r ∈ s.rows, RowFits r

/-- What stands behind the colon of a sheet. -/
def sheetBody (rows : List Row) : List Char :=
  if rows.isEmpty then [' ', '[', ']', '\n'] else '\n' :: rows.flatMap row

theorem sheet_eq (s : Sheet) : sheet s = s.name.toList ++ ':' :: sheetBody s.rows := by
  rw [sheet, sheetBody]
  split <;> simp

theorem sheetBody_cancels : Cancels sheetBody (∀ r ∈ ·, RowFits r) AtName := by
  refine ⟨fun {a b u v} ha hb hu hv hsame => ?_⟩
  cases a with
  | nil =>
    cases b with
    | nil => exact ⟨rfl, List.append_cancel_left hsame⟩
    | cons r rows => exact absurd (List.cons.inj hsame).1 (by decide)
  | cons r rows =>
    cases b with
    | nil => exact absurd (List.cons.inj hsame).1 (by decide)
    | cons r' rows' =>
      exact (separated_row.cancels row_cancels).cut ha hb hu hv (List.cons.inj hsame).2

theorem sheet_cancels : Cancels sheet SheetFits AtName := by
  refine ⟨?_⟩
  rintro ⟨name, rows⟩ ⟨other, rows'⟩ u v ⟨hname, hrows⟩ ⟨hother, hrows'⟩ hu hv hsame
  rw [sheet_eq, sheet_eq, List.append_assoc, List.append_assoc] at hsame
  obtain ⟨rfl, hbody⟩ := hname.cancel hother hsame
  obtain ⟨rfl, hend⟩ := sheetBody_cancels.cut hrows hrows' hu hv hbody
  exact ⟨rfl, hend⟩

theorem SheetFits.atName {s : Sheet} (h : SheetFits s) (rest : List Char) :
    AtName (sheet s ++ rest) := by
  rw [sheet_eq, List.append_assoc]
  exact h.1.atName _

theorem separated_sheet : Separated sheet SheetFits AtName (· = []) where
  last h c hc := by
    rw [h] at hc
    cases hc
  part h u := h.atName u
  apart _ u hnil := by
    rw [sheet_eq] at hnil
    simp at hnil

/-- **Sheets are told apart**, however many there are and whatever texts they hold. -/
theorem render_inj {sheets others : List Sheet} (hsheets : ∀ s ∈ sheets, SheetFits s)
    (hothers : ∀ s ∈ others, SheetFits s) (h : render sheets = render others) :
    sheets = others := by
  have hsame : sheets.flatMap sheet ++ [] = others.flatMap sheet ++ [] := by
    rw [List.append_nil, List.append_nil]
    exact h
  exact ((separated_sheet.cancels sheet_cancels).cut hsheets hothers rfl rfl hsame).1

end Yaml

/-! ### Records -/

theorem HandleExisting.code_injective : Function.Injective HandleExisting.code := by
  intro a b h
  cases a <;> cases b <;> first | rfl | exact absurd h (by decide)

theorem Rights.code_injective : Function.Injective Rights.code := by
  intro a b h
  cases a <;> cases b <;> first | rfl | exact absurd h (by decide)

theorem HandleExisting.length_code_le (handleExisting : HandleExisting) :
    (Nat.toDigits 10 handleExisting.code).length ≤ 300 := by
  cases handleExisting <;> decide

theorem Rights.length_code_le (rights : Rights) : (Nat.toDigits 10 rights.code).length ≤ 300 := by
  cases rights <;> decide

namespace UrlReservation

theorem rowFits (r : UrlReservation) : Yaml.RowFits r.row := by
  refine ⟨by simp [row], ?_⟩
  simp only [row, List.forall_mem_append, List.forall_mem_cons, List.forall_mem_map]
  have hid : Yaml.EntryFits ("id", .text r.id.text) := Yaml.entryFits_text (by decide) _
  have hhandleExisting : Yaml.EntryFits ("handle_existing", .number r.handleExisting.code) :=
    Yaml.entryFits_number (by decide) r.handleExisting.length_code_le
  have hsddl : ∀ sddl ∈ r.sddl?.toList, Yaml.EntryFits ("sddl", .text sddl) :=
    fun _ _ => Yaml.entryFits_text (by decide) _
  have hurl : Yaml.EntryFits ("url", .text r.url) := Yaml.entryFits_text (by decide) _
  have hcomponentId : Yaml.EntryFits ("component_id", .text r.componentId) :=
    Yaml.entryFits_text (by decide) _
  exact ⟨⟨⟨hid, hhandleExisting, by simp⟩, hsddl⟩, hurl, hcomponentId, by simp⟩

theorem row_injective : Function.Injective row := by
  rintro ⟨⟨id⟩, handleExisting, sddl?, url, componentId⟩ ⟨⟨id'⟩, handleExisting', sddl?', url',
    componentId'⟩ h
  -- a descriptor that only one of the two has would have the name of what stands behind it
  cases sddl? <;> cases sddl?' <;> simp_all [row, HandleExisting.code_injective.eq_iff]

end UrlReservation

namespace UrlAce

theorem rowFits (a : UrlAce) : Yaml.RowFits a.row := by
  refine ⟨by simp [row], ?_⟩
  simp only [row, List.forall_mem_cons]
  exact ⟨Yaml.entryFits_text (by decide) _, Yaml.entryFits_text (by decide) _,
    Yaml.entryFits_text (by decide) _, Yaml.entryFits_number (by decide) a.rights.length_code_le,
    by simp⟩

theorem row_injective : Function.Injective row := by
  rintro ⟨⟨id⟩, ⟨reservationId⟩, principal, rights⟩ ⟨⟨id'⟩, ⟨reservationId'⟩, principal', rights'⟩ h
  simp_all [row, Rights.code_injective.eq_iff]

end UrlAce

namespace Reference

theorem rowFits (r : Reference) : Yaml.RowFits r.row := by
  refine ⟨by simp [row], ?_⟩
  simp only [row, List.forall_mem_cons]
  exact ⟨Yaml.entryFits_text (by decide) _, Yaml.entryFits_text (by decide) _, by simp⟩

theorem row_injective : Function.Injective row := by
  rintro ⟨table, name⟩ ⟨table', name'⟩ h
  simp_all [row]

end Reference

namespace RecordSet

theorem sheetFits (records : RecordSet) : ∀ s ∈ records.sheets, Yaml.SheetFits s := by
  simp only [sheets, List.forall_mem_cons, Yaml.SheetFits, List.forall_mem_map]
  exact ⟨⟨by decide, fun r _ => r.rowFits⟩, ⟨by decide, fun a _ => a.rowFits⟩,
    ⟨by decide, fun r _ => r.rowFits⟩, by simp⟩

/-- The sheets hold all there is in records. -/
theorem sheets_injective : Function.Injective sheets := by
  rintro ⟨reservations, aces, references⟩ ⟨reservations', aces', references'⟩ h
  simp only [sheets, List.cons.injEq, Sheet.mk.injEq, true_and, and_true] at h
  obtain ⟨hreservations, haces, hreferences⟩ := h
  rw [List.map_injective_iff.mpr UrlReservation.row_injective hreservations,
    List.map_injective_iff.mpr UrlAce.row_injective haces,
    List.map_injective_iff.mpr Reference.row_injective hreferences]

end RecordSet

/--
**YAML tells records apart.**

Whatever texts they hold, different records are never written in the same way: a descriptor that
is absent is not written like an empty one, a text of digits not like a number, a text in one
style not like another text in another style, and no line of a text like a member.
-/
theorem yaml_eq_iff (a b : RecordSet) : Format.yaml.render a = Format.yaml.render b ↔ a = b := by
  refine ⟨fun h => ?_, fun h => by rw [h]⟩
  have htext : Yaml.render a.sheets = Yaml.render b.sheets := String.ofList_injective h
  exact RecordSet.sheets_injective (Yaml.render_inj a.sheetFits b.sheetFits htext)

end UrlReservations
