/-
All or nothing.

A run of the program ends in one of three ways: there is no document, the document has errors,
or the records are delivered.  Two facts are kept apart along the way and must agree, the flag
that withholds the records and the number of errors that is given as the reason
(`records?_isSome_iff`).  All of it is decided before anything is printed or written, so
nothing is left half done: the directory is as it was, or a single file holds the whole text.

What a run says on the way is part of what it does.  `Says` spells out the line of a
diagnostic, and the outcomes spell out the last line, so that the theorem in the end speaks of
the texts and not of the functions that build them.
-/
import UrlReservations.CommandLine.Directory
import UrlReservations.Proofs.Growth

namespace UrlReservations

/-- The records are delivered exactly if no error is counted. -/
theorem Session.records?_isSome_iff {s : Session} (h : s.FlagAgrees) :
    s.output.records?.isSome = true ↔ s.output.errorCount = 0 := by
  have hcount : s.output.errorCount = 0 ↔ s.NoError := by
    rw [Output.errorCount, List.countP_eq_zero]
    simp only [Bool.not_eq_true]
    rfl
  rw [hcount, noError_iff h, output]
  cases s.encounteredError <;> simp

theorem compile_flagAgrees (doc : Xml.Document) (platform : Platform) :
    (compile doc platform).FlagAgrees :=
  Session.stable_flagAgrees.perform (Session.start_flagAgrees platform) .strict doc.actions

namespace CommandLine

namespace Directory

/-! ### Writing a file -/

variable {directory written : Directory} {path name : String} {content : ByteArray}

/-- Which file a path leads to does not depend on which files there are. -/
theorem follow_eq_file {parts : List (List Char)} (h : directory.follow parts = .file name)
    (other : Directory) : other.follow parts = .file name := by
  induction parts with
  | nil => simp [follow] at h
  | cons part rest ih =>
    unfold follow at h ⊢
    by_cases hstays : stays part = true
    · rw [if_pos hstays] at h ⊢
      exact ih h
    · rw [if_neg hstays] at h ⊢
      by_cases hup : part = ['.', '.']
      · simp [hup] at h
      · rw [if_neg hup] at h ⊢
        by_cases hlast : rest.isEmpty = true
        · simpa [hlast] using h
        · by_cases hslashes : (rest.all (·.isEmpty)) = true <;> simp [hlast, hslashes] at h

theorem resolve_eq_file (h : directory.resolve path = .file name) (other : Directory) :
    other.resolve path = .file name := by
  unfold resolve at h ⊢
  by_cases habsolute : path.toList.head? = some '/'
  · simp [habsolute] at h
  · rw [if_neg habsolute] at h ⊢
    exact follow_eq_file h other

/-- What a path leads to that could be written. -/
theorem resolve_of_write (h : directory.write path content = .ok written) :
    ∃ name, directory.resolve path = .file name ∧
      written = ⟨(name, content) :: directory.files.filter (·.1 ≠ name)⟩ := by
  unfold write at h
  cases htarget : directory.resolve path with
  | file name =>
    rw [htarget] at h
    exact ⟨name, rfl, (Except.ok.inj h).symm⟩
  | directory => simp [htarget] at h
  | slashed name => simp [htarget] at h
  | nowhere error => simp [htarget] at h

/-- A file that has been written has the content, and every other file is as it was. -/
theorem read_of_write (h : directory.write path content = .ok written) :
    written.read path = .ok content ∧
      ∃ name, directory.resolve path = .file name ∧
        ∀ other, other ≠ name → written.find? other = directory.find? other := by
  obtain ⟨name, hresolve, rfl⟩ := resolve_of_write h
  refine ⟨?_, name, hresolve, ?_⟩
  · simp [read, resolve_eq_file hresolve, find?]
  · intro other hne
    have hother : (other == name) = false := by simpa using hne
    rw [find?, List.lookup_cons, hother]
    exact lookup_filter_ne hne directory.files

end Directory

/-! ### Where a source leads -/

/-- A source that gives no document, and why. -/
inductive Unreadable : Except FileError ByteArray → Failure → Prop
  | unread (error : FileError) : Unreadable (.error error) (.file error)
  | notText {bytes : ByteArray}
    (h : String.fromUTF8? bytes = none) : Unreadable (.ok bytes) (.file .notText)
  | malformed {bytes : ByteArray} {text : String} {error : Xml.Error}
    (h : String.fromUTF8? bytes = some text)
      (hread : Xml.Document.read text = .error error) : Unreadable (.ok bytes) (.malformed error)

/-- A source that is the text of a document. -/
def Gives (source : Except FileError ByteArray) (doc : Xml.Document) : Prop :=
  ∃ bytes text, source = .ok bytes ∧ String.fromUTF8? bytes = some text ∧
    Xml.Document.read text = .ok doc

theorem documentOf_of_unreadable {source : Except FileError ByteArray} {failure : Failure}
    (h : Unreadable source failure) : documentOf source = .error failure := by
  cases h with
  | unread error => rfl
  | notText h => simp [documentOf, h]
  | malformed h hread => simp [documentOf, h, hread]

theorem documentOf_of_gives {source : Except FileError ByteArray} {doc : Xml.Document}
    (h : Gives source doc) : documentOf source = .ok doc := by
  obtain ⟨bytes, text, rfl, htext, hread⟩ := h
  simp [documentOf, htext, hread]

theorem unreadable_or_gives (source : Except FileError ByteArray) :
    (∃ failure, Unreadable source failure) ∨ ∃ doc, Gives source doc := by
  cases source with
  | error error => exact .inl ⟨_, .unread error⟩
  | ok bytes =>
    cases htext : String.fromUTF8? bytes with
    | none => exact .inl ⟨_, .notText htext⟩
    | some text =>
      cases hread : Xml.Document.read text with
      | error error => exact .inl ⟨_, .malformed htext hread⟩
      | ok doc => exact .inr ⟨doc, bytes, text, rfl, htext, hread⟩

namespace Invocation

variable {invocation : Invocation} {source : Except FileError ByteArray} {output : Output}
  {records : RecordSet}

theorem plan_of_unreadable {failure : Failure} (h : Unreadable source failure) :
    invocation.plan source = ⟨[], .refuse failure⟩ := by
  simp [plan, documentOf_of_unreadable h]

theorem plan_of_gives {doc : Xml.Document} (h : Gives source doc) :
    invocation.plan source =
      let output := (compile doc invocation.platform).output
      ⟨output.diagnostics.map (logLine invocation.input), invocation.deliver output⟩ := by
  simp [plan, documentOf_of_gives h]

theorem deliver_of_withheld (invocation : Invocation) (h : output.records? = none) :
    invocation.deliver output = .refuse (.errorsReported output.errorCount) := by
  rw [deliver, h]

theorem deliver_to_stdout (h : output.records? = some records)
    (hstdout : invocation.output? = none) :
    invocation.deliver output = .print (invocation.format.render records) := by
  rw [deliver, h, hstdout]

theorem deliver_to_file {path : String} (h : output.records? = some records)
    (hpath : invocation.output? = some path) :
    invocation.deliver output
      = .save path (invocation.format.render records) (receipt records path) := by
  rw [deliver, h, hpath]

end Invocation

/-! ### What a run says -/

/--
A line says a diagnostic about a source: it names the source, where in it, how much the message
weighs, and then gives the message.
-/
def Says (source : String) (d : Diagnostic) (line : String) : Prop :=
  line = source ++ "(" ++ toString d.pos.line ++ ":" ++ toString d.pos.column ++ "): " ++
    (if d.isError then "error" else "warning") ++ ": " ++ d.message.text

theorem says_logLine (source : String) (d : Diagnostic) : Says source d (logLine source d) := by
  have hname : d.severity.name = if d.isError then "error" else "warning" := by
    rw [Diagnostic.severity, Diagnostic.isError, Message.isError]
    cases d.message.severity <;> rfl
  rw [Says, logLine, hname]
  simp only [toString, Position.text, String.append_assoc]

/-- Each diagnostic has its line, in the order they were reported in. -/
theorem forall₂_says (source : String) (diagnostics : List Diagnostic) :
    List.Forall₂ (Says source) diagnostics (diagnostics.map (logLine source)) := by
  rw [List.forall₂_map_right_iff, List.forall₂_same]
  exact fun d _ => says_logLine source d

/-! ### What a run leaves behind -/

/--
A run that delivers nothing: it fails, its last line says why, and no file is created or
changed.
-/
structure Outcome.Refused (outcome : Outcome) (directory : Directory) (log : List String)
    (failure : Failure) : Prop where
  exitCode : outcome.exitCode = 1
  printed : outcome.printed = ""
  log : outcome.log = log ++ ["Error: " ++ failure.message]
  directory : outcome.directory = directory

/-- A run that delivers a text on standard output. -/
structure Outcome.Printed (outcome : Outcome) (directory : Directory) (log : List String)
    (text : String) : Prop where
  exitCode : outcome.exitCode = 0
  printed : outcome.printed = text
  log : outcome.log = log
  directory : outcome.directory = directory

/-- A run that delivers the text of records in a file, of which it says so in its last line. -/
structure Outcome.Saved (outcome : Outcome) (directory : Directory) (log : List String)
    (path text : String) (records : RecordSet) : Prop where
  exitCode : outcome.exitCode = 0
  printed : outcome.printed = ""
  log : outcome.log = log ++ ["Wrote " ++ toString records.urlReservations.length ++
    " reservation(s), " ++ toString records.urlAces.length ++ " ACE(s) to " ++ path]
  written : outcome.directory.read path = .ok text.toUTF8
  others : ∃ name, directory.resolve path = .file name ∧
    ∀ other, other ≠ name → outcome.directory.find? other = directory.find? other

theorem Plan.carryOut_refuse (log : List String) (failure : Failure) (directory : Directory) :
    (Plan.carryOut ⟨log, .refuse failure⟩ directory).Refused directory log failure :=
  ⟨rfl, rfl, rfl, rfl⟩

theorem Plan.carryOut_print (log : List String) (text : String) (directory : Directory) :
    (Plan.carryOut ⟨log, .print text⟩ directory).Printed directory log text :=
  ⟨rfl, rfl, rfl, rfl⟩

/-- Saving a text saves all of it, or fails and changes nothing. -/
theorem Plan.carryOut_save (log : List String) (path text : String) (records : RecordSet)
    (directory : Directory) :
    match directory.write path text.toUTF8 with
    | .ok _ => (Plan.carryOut ⟨log, .save path text (receipt records path)⟩ directory).Saved
        directory log path text records
    | .error error =>
      (Plan.carryOut ⟨log, .save path text (receipt records path)⟩ directory).Refused
        directory log (.file error) := by
  cases hwrite : directory.write path text.toUTF8 with
  | error error =>
    have houtcome : Plan.carryOut ⟨log, .save path text (receipt records path)⟩ directory
        = ⟨1, "", log ++ [failureLine (.file error)], directory⟩ := by
      simp only [carryOut, hwrite]
    rw [houtcome]
    exact ⟨rfl, rfl, rfl, rfl⟩
  | ok written =>
    have houtcome : Plan.carryOut ⟨log, .save path text (receipt records path)⟩ directory
        = ⟨0, "", log ++ [receipt records path], written⟩ := by
      simp only [carryOut, hwrite]
    obtain ⟨hread, hothers⟩ := Directory.read_of_write hwrite
    rw [houtcome]
    exact ⟨rfl, rfl, rfl, hread, hothers⟩

/--
**All or nothing.**

Whatever reading the source gave and whatever directory the plan is carried out in: a source
without a document is refused without a word about its markup; a document with errors is refused
with their number, after all its diagnostics; and the records of any other document are
delivered as one text, the same on standard output as in a file, after all its diagnostics.
Each diagnostic has one line, in the order they were reported in.  `Invocation.run` is the case
of the source that the directory holds.
-/
theorem delivers_all_or_nothing (invocation : Invocation) (source : Except FileError ByteArray)
    (directory : Directory) :
    let plan := invocation.plan source
    let outcome := plan.carryOut directory
    (source = directory.read invocation.input → outcome = invocation.run directory) ∧
    ((∃ failure, Unreadable source failure) ∨ ∃ doc, Gives source doc) ∧
    (∀ failure, Unreadable source failure →
      plan = ⟨[], .refuse failure⟩ ∧ outcome.Refused directory [] failure) ∧
    ∀ doc, Gives source doc →
      let output := (compile doc invocation.platform).output
      let errors := output.diagnostics.countP (·.severity = .error)
      let log := output.diagnostics.map (logLine invocation.input)
      plan.log = log ∧ List.Forall₂ (Says invocation.input) output.diagnostics log ∧
      output.errorCount = errors ∧ (output.records?.isSome = true ↔ output.errorCount = 0) ∧
      (0 < output.errorCount →
        plan.delivery = .refuse (.errorsReported output.errorCount) ∧
        outcome.Refused directory log (.errorsReported output.errorCount) ∧
        outcome.log = log ++
          ["Error: Compilation failed with " ++ toString errors ++ " error(s)"]) ∧
      ∀ records, output.records? = some records →
        let text := invocation.format.render records
        (invocation.output? = none →
          plan.delivery = .print text ∧ outcome.Printed directory log text) ∧
        ∀ path, invocation.output? = some path →
          plan.delivery = .save path text (receipt records path) ∧
          match directory.write path text.toUTF8 with
          | .ok _ => outcome.Saved directory log path text records
          | .error error => outcome.Refused directory log (.file error) := by
  intro plan outcome
  refine ⟨?_, unreadable_or_gives source, ?_, ?_⟩
  · rintro rfl
    rfl
  · intro failure h
    have hplan : plan = ⟨[], .refuse failure⟩ := Invocation.plan_of_unreadable h
    refine ⟨hplan, ?_⟩
    show (plan.carryOut directory).Refused directory [] failure
    rw [hplan]
    exact Plan.carryOut_refuse [] failure directory
  · intro doc h output errors log
    have hagree : output.records?.isSome = true ↔ output.errorCount = 0 :=
      Session.records?_isSome_iff (compile_flagAgrees doc invocation.platform)
    have hplan : plan = ⟨log, invocation.deliver output⟩ := Invocation.plan_of_gives h
    have houtcome : outcome = Plan.carryOut ⟨log, invocation.deliver output⟩ directory := by
      rw [← hplan]
    refine ⟨by rw [hplan], forall₂_says invocation.input output.diagnostics, rfl, hagree, ?_, ?_⟩
    · intro hcount
      have hwithheld : output.records? = none := by
        rw [← Option.not_isSome_iff_eq_none, hagree]
        omega
      have hdeliver := invocation.deliver_of_withheld hwithheld
      have hrefused : outcome.Refused directory log (.errorsReported output.errorCount) := by
        rw [houtcome, hdeliver]
        exact Plan.carryOut_refuse log _ directory
      refine ⟨by rw [hplan, hdeliver], hrefused, ?_⟩
      rw [hrefused.log]
      rfl
    · intro records hrecords text
      refine ⟨?_, ?_⟩
      · intro hstdout
        have hdeliver := Invocation.deliver_to_stdout hrecords hstdout
        refine ⟨by rw [hplan, hdeliver], ?_⟩
        rw [houtcome, hdeliver]
        exact Plan.carryOut_print log text directory
      · intro path hpath
        have hdeliver := Invocation.deliver_to_file hrecords hpath
        refine ⟨by rw [hplan, hdeliver], ?_⟩
        rw [houtcome, hdeliver]
        exact Plan.carryOut_save log path text records directory

end CommandLine

end UrlReservations
