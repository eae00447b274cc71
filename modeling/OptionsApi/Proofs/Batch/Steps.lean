import OptionsApi.Batch
import OptionsApi.Proofs.Document.SourcePath
import OptionsApi.Proofs.File.Store
import OptionsApi.Proofs.Text.Utf8

/-! The steps of a batch, one file each. What a conversion comes to is settled by the document that
was loaded, so by that file alone; all that is written is the file itself. -/

set_option autoImplicit false

namespace OptionsApi

section
variable (extract : Extractor) (settings : Settings) (write : Bool)

/-- What the conversion of a file comes to before anything is written. -/
def attempt (files : FileStore) (path : Text) : Except Failure (Option (Converted × Document)) :=
  match files.load path with
  | .error failure => .error failure
  | .ok document =>
    let ran := (convertDocument extract settings .edit).run.run { document }
    ran.1.map fun converted? => converted?.map (·, ran.2.document)

/-- The report on a file at a path, by what its conversion came to and whether the file may be
written. That it may not concerns the file only. -/
def ending (unencodable : List Char) (mayWrite : Bool) (path : Text) :
    Except Failure (Option (Converted × Document)) → Except Failure Report
  | .error failure =>
    if failure.isContained then .ok { path, status := .failed, error := some failure.message }
    else .error failure
  | .ok none => .ok { path, status := .skipped }
  | .ok (some (converted, document)) =>
    let report : Report :=
      { path
        status := .converted
        component := some converted.component
        diagnostics := converted.diagnostics }
    if write then
      if mayWrite then
        match Text.encode unencodable document.text with
        | .ok _ => .ok report
        | .error error => .error (.encoding error)
      else
        .ok { path, status := .failed, error := some (FileError.message ⟨.denied, Path.ofText path⟩) }
    else .ok { report with output := some document.text }

/-- The place and the new bytes of the file that is written, if one is. Where the text has no bytes
the file is left empty. -/
def written? (files : FileStore) (path : Text) : Option (List Text × Text.Bytes) :=
  match attempt extract settings files path with
  | .ok (some (_, document)) =>
    if write && files.mayWrite path then
      (files.place? path).map (·, (Text.encode files.unencodable document.text).toOption.getD [])
    else none
  | _ => none

variable {extract settings write}
variable {files left right : FileStore} {path : Text} {converted : Converted} {document : Document}
  {names : List Text}

theorem attempt_eq_converted
    (done : attempt extract settings files path = .ok (some (converted, document))) :
    document.path = some path ∧ (∃ names, files.place? path = some names) ∧
      ∃ loaded session, files.load path = .ok loaded ∧
        (convertDocument extract settings .edit).run.run { document := loaded } =
          (.ok (some converted), session) ∧ session.document = document := by
  rw [attempt] at done
  cases loaded : files.load path with
  | error failure =>
    rw [loaded] at done
    cases done
  | ok source =>
    simp only [loaded] at done
    cases ran : (convertDocument extract settings .edit).run.run { document := source } with
    | mk outcome session =>
      rw [ran] at done
      rcases outcome with failure | _ | value
      · cases done
      · cases done
      · cases done
        obtain ⟨origin, names, _, _, placed, _, _⟩ := FileStore.load_eq_ok loaded
        have kept := convertDocument_keeps_path extract settings .edit _ _ _ ran
        exact ⟨kept.trans origin, ⟨names, placed⟩, source, session, rfl, ran, rfl⟩

theorem Failure.report_eq (failure : Failure) (path : Text) (files : FileStore) (log : Log)
    (unencodable : List Char) (mayWrite : Bool) :
    ∃ after, failure.report path files log =
      { outcome := ending write unencodable mayWrite path (.error failure)
        files
        log := after } := by
  rw [report, ending]
  split <;> exact ⟨_, rfl⟩

/-- What the conversion comes to decides the report and the files, and what else is done is logged. -/
theorem convertFile_eq :
    ∃ log, convertFile extract settings write files path =
      { outcome := ending write files.unencodable (files.mayWrite path) path
          (attempt extract settings files path)
        files := (written? extract settings write files path).elim files files.overwrite
        log } := by
  rw [convertFile, written?]
  cases loaded : files.load path with
  | error failure =>
    have tried : attempt extract settings files path = .error failure := by rw [attempt, loaded]
    simp only [tried]
    exact failure.report_eq path files [] _ _
  | ok document =>
    dsimp only
    rcases ran : (convertDocument extract settings .edit).run.run { document } with
      ⟨failure | _ | converted, session⟩
    · have tried : attempt extract settings files path = .error failure := by
        simp only [attempt, loaded, ran]
        rfl
      simp only [tried]
      exact failure.report_eq path files session.log _ _
    · have tried : attempt extract settings files path = .ok none := by
        simp only [attempt, loaded, ran]
        rfl
      simp only [tried]
      exact ⟨_, rfl⟩
    · have tried : attempt extract settings files path = .ok (some (converted, session.document)) := by
        simp only [attempt, loaded, ran]
        rfl
      obtain ⟨kept, ⟨names, placed⟩, _⟩ := attempt_eq_converted tried
      simp only [tried]
      -- The document goes back to the file it was loaded from, so that there is one is certain.
      rw [finishFile, FileStore.save_eq kept placed, placed, ending]
      cases write with
      | false => exact ⟨_, rfl⟩
      | true =>
        cases files.mayWrite path with
        | false => exact ⟨_, rfl⟩
        | true => cases Text.encode files.unencodable session.document.text <;> exact ⟨_, rfl⟩

theorem convertFile_outcome :
    (convertFile extract settings write files path).outcome =
      ending write files.unencodable (files.mayWrite path) path
        (attempt extract settings files path) := by
  obtain ⟨log, same⟩ : ∃ log, convertFile extract settings write files path = _ := convertFile_eq
  rw [same]

theorem convertFile_files :
    (convertFile extract settings write files path).files =
      (written? extract settings write files path).elim files files.overwrite := by
  obtain ⟨log, same⟩ : ∃ log, convertFile extract settings write files path = _ := convertFile_eq
  rw [same]

theorem path_of_convertFile {report : Report}
    (returned : (convertFile extract settings write files path).outcome = .ok report) :
    report.path = path := by
  rw [convertFile_outcome] at returned
  rcases tried : attempt extract settings files path with failure | _ | ⟨converted, document⟩
  · rw [tried, ending] at returned
    split at returned <;> cases returned
    rfl
  · rw [tried, ending] at returned
    cases returned
    rfl
  · rw [tried, ending] at returned
    split at returned
    next =>
      split at returned
      next =>
        split at returned <;> cases returned
        rfl
      next =>
        cases returned
        rfl
    next =>
      cases returned
      rfl

theorem written?_eq_some {change : List Text × Text.Bytes}
    (wrote : written? extract settings write files path = some change) :
    files.place? path = some change.1 ∧ write = true ∧ files.mayWrite path = true ∧
      ∃ converted document, attempt extract settings files path = .ok (some (converted, document)) ∧
        change.2 = (Text.encode files.unencodable document.text).toOption.getD [] := by
  rw [written?.eq_def] at wrote
  split at wrote
  next converted document done =>
    split at wrote
    next allowed =>
      obtain ⟨names, placed, rfl⟩ := Option.map_eq_some_iff.mp wrote
      obtain ⟨writes, mayWrite⟩ := Bool.and_eq_true_iff.mp allowed
      exact ⟨placed, writes, mayWrite, converted, document, done, rfl⟩
    next => cases wrote
  next => cases wrote

theorem bytes_of_written? {change : List Text × Text.Bytes} {report : Report}
    (wrote : written? extract settings write files path = some change)
    (returned : (convertFile extract settings write files path).outcome = .ok report) :
    ∃ loaded converted session, files.load path = .ok loaded ∧
      (convertDocument extract settings .edit).run.run { document := loaded } =
        (.ok (some converted), session) ∧
      Text.encode files.unencodable session.document.text = .ok change.2 := by
  obtain ⟨_, writes, mayWrite, converted, document, done, bytes⟩ := written?_eq_some wrote
  obtain ⟨_, _, loaded, session, source, ran, rfl⟩ := attempt_eq_converted done
  refine ⟨loaded, converted, session, source, ran, ?_⟩
  rw [convertFile_outcome, done, writes, mayWrite] at returned
  cases encoded : Text.encode files.unencodable session.document.text with
  | ok stored =>
    rw [encoded] at bytes
    rw [bytes]
    rfl
  | error error =>
    simp only [ending, encoded, if_true] at returned
    cases returned

/-- A file is written exactly if it is to be and its report says that it was converted. -/
theorem isSome_written? {report : Report}
    (returned : (convertFile extract settings write files path).outcome = .ok report) :
    (written? extract settings write files path).isSome ↔
      write = true ∧ report.status = .converted := by
  rw [convertFile_outcome] at returned
  rw [written?]
  rcases tried : attempt extract settings files path with failure | _ | ⟨converted, document⟩
  · rw [tried, ending] at returned
    split at returned <;> cases returned
    simp
  · rw [tried] at returned
    cases returned
    simp
  · obtain ⟨_, ⟨names, placed⟩, _⟩ := attempt_eq_converted tried
    rw [tried, ending] at returned
    rw [placed]
    cases write with
    | false =>
      cases returned
      simp
    | true =>
      cases allowed : files.mayWrite path with
      | false =>
        rw [allowed] at returned
        cases returned
        simp
      | true =>
        simp only [allowed, if_true] at returned
        split at returned <;> cases returned
        simp

/-! The file alone decides. -/

theorem attempt_of_agree (agree : FileStore.AgreeAt path left right) :
    attempt extract settings left path = attempt extract settings right path := by
  rw [attempt, attempt, agree.load]

theorem convertFile_of_agree (agree : FileStore.AgreeAt path left right) :
    (convertFile extract settings write left path).outcome =
      (convertFile extract settings write right path).outcome := by
  rw [convertFile_outcome, convertFile_outcome, attempt_of_agree agree, agree.mayWrite,
    agree.shape.unencodable]

theorem written?_of_agree (agree : FileStore.AgreeAt path left right) :
    written? extract settings write left path = written? extract settings write right path := by
  rw [written?, written?, attempt_of_agree agree, agree.mayWrite,
    FileStore.place?_of_sameShape agree.shape, agree.shape.unencodable]

/-! One file after another. -/

theorem convertFiles_cons_eq_ok {paths : List Text} {reports : List Report} :
    (convertFiles extract settings write files (path :: paths)).outcome = .ok reports ↔
      ∃ report rest, (convertFile extract settings write files path).outcome = .ok report ∧
        (convertFiles extract settings write (convertFile extract settings write files path).files
          paths).outcome = .ok rest ∧ reports = report :: rest := by
  rw [convertFiles]
  cases (convertFile extract settings write files path).outcome with
  | error failure => simp
  | ok report =>
    dsimp only
    cases (convertFiles extract settings write
        (convertFile extract settings write files path).files paths).outcome with
    | error failure => simp [Except.map]
    | ok rest => simp [Except.map, eq_comm]

theorem convertFiles_cons_files {paths : List Text} {report : Report}
    (first : (convertFile extract settings write files path).outcome = .ok report) :
    (convertFiles extract settings write files (path :: paths)).files =
      (convertFiles extract settings write (convertFile extract settings write files path).files
        paths).files := by
  rw [convertFiles, first]

end

/-! Files to look at. -/

def threeFiles : FileStore where
  entries := [([['w'], ['a']], .file [0x78, 0xC3, 0xA9]), ([['w'], ['b']], .file [0xFF]),
    ([['w'], ['c']], .file [0x79])]
  workingDirectory := [['w']]

/-- The three files: by name, from the root, and by way of the parent directory. -/
def threePaths : List Text := ["a", "/w/b", "../w/c"]

def oneCharacterClass : Extractor := fun document =>
  .ok (if document.text = ['y'] then none else some (emptyClass 1))

end OptionsApi
