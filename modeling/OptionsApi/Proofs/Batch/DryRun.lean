import OptionsApi.Proofs.Batch.Pointwise

/-! A run that writes nothing predicts the run that does: the same reports, with the texts that will be
stored. -/

set_option autoImplicit false

namespace OptionsApi

def Report.withoutOutput (report : Report) : Report := { report with output := none }

section
variable {extract : Extractor} {settings : Settings} {files : FileStore} {path : Text}
  {paths : List Text} {reports : List Report}

theorem convertFile_files_dry : (convertFile extract settings false files path).files = files := by
  have nothing : written? extract settings false files path = none := by
    rw [written?.eq_def]
    split <;> rfl
  rw [convertFile_files, nothing, Option.elim_none]

theorem convertFiles_files_dry (paths : List Text) :
    (convertFiles extract settings false files paths).files = files := by
  induction paths with
  | nil => rfl
  | cons path paths ih =>
    rw [convertFiles]
    cases (convertFile extract settings false files path).outcome with
    | error failure => exact convertFile_files_dry
    | ok report =>
      dsimp only
      rw [convertFile_files_dry, ih]

theorem ending_of_dry {unencodable : List Char} {mayWrite : Bool} {path : Text}
    {tried : Except Failure (Option (Converted × Document))} {report : Report}
    (allowed : ∀ result, tried = .ok (some result) → mayWrite = true)
    (dry : ending false unencodable mayWrite path tried = .ok report) :
    (∃ error text, report.output = some text ∧ Text.encode unencodable text = .error error ∧
        ending true unencodable mayWrite path tried = .error (.encoding error)) ∨
      (∀ text, report.output = some text → ∃ bytes, Text.encode unencodable text = .ok bytes) ∧
        ending true unencodable mayWrite path tried = .ok report.withoutOutput := by
  rcases tried with failure | _ | ⟨converted, document⟩
  · rw [ending] at dry
    split at dry <;> cases dry
    next contained =>
      rw [ending, if_pos contained]
      exact .inr ⟨fun _ kept => absurd kept (by simp), rfl⟩
  · cases dry
    exact .inr ⟨fun _ kept => absurd kept (by simp), rfl⟩
  · cases dry
    rw [allowed _ rfl, ending]
    cases encoded : Text.encode unencodable document.text with
    | error error => exact .inl ⟨error, document.text, rfl, encoded, rfl⟩
    | ok bytes =>
      refine .inr ⟨fun text kept => ?_, rfl⟩
      cases kept
      exact ⟨bytes, encoded⟩

theorem output_of_ending {unencodable : List Char} {mayWrite : Bool}
    {tried : Except Failure (Option (Converted × Document))} {report : Report}
    (ended : ending false unencodable mayWrite path tried = .ok report) :
    (report.status ≠ .converted ∧ report.output = none) ∨
      report.status = .converted ∧ ∃ converted document,
        tried = .ok (some (converted, document)) ∧ report.output = some document.text := by
  rcases tried with failure | _ | ⟨converted, document⟩
  · rw [ending] at ended
    split at ended <;> cases ended
    exact .inl ⟨by simp, rfl⟩
  · cases ended
    exact .inl ⟨by simp, rfl⟩
  · cases ended
    exact .inr ⟨rfl, converted, document, rfl, rfl⟩

/-- A path that leads to no readable file, or to one that may be written. -/
def FileStore.Replaceable (files : FileStore) (path : Text) : Prop :=
  ∀ names bytes access, files.place? path = some names →
    files.find? names = some (.file bytes access) → access.readable = true → access.writable = true

theorem mayWrite_of_attempt (replaceable : files.Replaceable path)
    {result : Converted × Document}
    (done : attempt extract settings files path = .ok (some result)) :
    files.mayWrite path = true := by
  obtain ⟨converted, document⟩ := result
  obtain ⟨_, _, loaded, _, source, _, _⟩ := attempt_eq_converted done
  obtain ⟨_, names, bytes, access, placed, found, readable⟩ := FileStore.load_eq_ok source
  rw [FileStore.mayWrite, placed, Option.bind_some, found]
  exact replaceable names bytes access placed found readable

/-- The texts that a report keeps can be written to a file. -/
def FileStore.CanHold (files : FileStore) (report : Report) : Prop :=
  ∀ text, report.output = some text → ∃ bytes, Text.encode files.unencodable text = .ok bytes

theorem convertFile_of_dry {report : Report} (replaceable : files.Replaceable path)
    (dry : (convertFile extract settings false files path).outcome = .ok report) {actual : Report} :
    (convertFile extract settings true files path).outcome = .ok actual ↔
      files.CanHold report ∧ actual = report.withoutOutput := by
  rw [convertFile_outcome] at dry
  rw [convertFile_outcome]
  rcases ending_of_dry (fun _ done => mayWrite_of_attempt replaceable done) dry with
    ⟨error, text, kept, unencoded, failed⟩ | ⟨canHold, same⟩
  · rw [failed]
    refine iff_of_false (fun returned => by cases returned) ?_
    rintro ⟨canHold, _⟩
    obtain ⟨bytes, encoded⟩ := canHold text kept
    cases unencoded.symm.trans encoded
  · rw [same]
    simp only [Except.ok.injEq, eq_comm, iff_and_self]
    exact fun _ => canHold

theorem convertFiles_of_dry {predicted actual : List Report} (apart : files.Apart paths)
    (replaceable : ∀ path ∈ paths, files.Replaceable path)
    (dry : (convertFiles extract settings false files paths).outcome = .ok predicted) :
    (convertFiles extract settings true files paths).outcome = .ok actual ↔
      (∀ report ∈ predicted, files.CanHold report) ∧
        actual = predicted.map Report.withoutOutput := by
  rw [convertFiles_eq_ok_iff apart] at dry ⊢
  clear apart
  induction paths generalizing predicted actual with
  | nil =>
    cases predicted with
    | nil => cases actual <;> simp
    | cons report rest => cases dry
  | cons path paths ih =>
    cases predicted with
    | nil => cases dry
    | cons report rest =>
      obtain ⟨first, later⟩ := List.cons.inj dry
      obtain ⟨here, ahead⟩ := List.forall_mem_cons.mp replaceable
      cases actual with
      | nil => simp
      | cons one more =>
        rw [List.map_cons, List.map_cons, List.cons.injEq, convertFile_of_dry here first,
          ih ahead later, List.forall_mem_cons, List.map_cons, List.cons.injEq]
        exact and_and_and_comm

end

/-- A dry run predicts the real run. For different files that may be written if they may be read, a
run that writes nothing leaves the files alone. The run that writes comes to an end exactly if the
texts that the dry run keeps can be stored, and then to the same reports but for the texts. The text
kept for a converted file is the one that is stored there; other reports keep none. -/
theorem dry_run_predicts (extract : Extractor) (settings : Settings) (files : FileStore)
    (paths : List Text) (predicted : List Report) (apart : files.Apart paths)
    (replaceable : ∀ path ∈ paths, files.Replaceable path)
    (dry : (convertFiles extract settings false files paths).outcome = .ok predicted) :
    let real := convertFiles extract settings true files paths
    (convertFiles extract settings false files paths).files = files ∧
      ((∃ actual, real.outcome = .ok actual) ↔ ∀ report ∈ predicted, files.CanHold report) ∧
      ∀ actual, real.outcome = .ok actual →
        actual = predicted.map Report.withoutOutput ∧
        ∀ path report, (path, report) ∈ paths.zip predicted →
          (report.status ≠ .converted ∧ report.output = none) ∨
            report.status = .converted ∧ ∃ text names bytes access, report.output = some text ∧
              files.place? path = some names ∧
              real.files.find? names = some (.file bytes access) ∧
              bytes = Text.encodeUtf8 text ∧ Text.decodeUtf8 bytes = .ok text := by
  have alone := (convertFiles_eq_ok_iff apart).mp dry
  refine ⟨convertFiles_files_dry paths, ?_, fun actual real => ?_⟩
  · simp only [convertFiles_of_dry apart replaceable dry, exists_eq_right]
  obtain ⟨canHold, same⟩ := (convertFiles_of_dry apart replaceable dry).mp real
  refine ⟨same, fun path report listed => ?_⟩
  obtain ⟨member, among⟩ := List.of_mem_zip listed
  have own := outcome_of_mem_zip alone listed
  rw [convertFile_outcome] at own
  rcases output_of_ending own with other | ⟨status, converted, document, done, kept⟩
  · exact .inl other
  · obtain ⟨_, ⟨names, placed⟩, _⟩ := attempt_eq_converted done
    obtain ⟨bytes, encoded⟩ := canHold report among document.text kept
    have allowed := mayWrite_of_attempt (replaceable path member) done
    have wrote : written? extract settings true files path = some (names, bytes) := by
      simp only [written?, done, allowed, placed, encoded]
      rfl
    obtain ⟨place, old, access, _, _, found⟩ := FileStore.place?_eq_some placed
    refine .inr ⟨status, document.text, names, bytes, access, kept, placed, ?_,
      (Text.encode_eq_ok_iff.mp encoded).2, Text.decodeUtf8_of_encode encoded⟩
    rw [find?_convertFiles_of_mem apart real member placed, wrote, Option.elim_some, found]
    rfl

theorem threeFiles_predicted :
    let real := convertFiles oneCharacterClass {} true threeFiles threePaths
    threeFiles.Apart threePaths ∧ (∀ path ∈ threePaths, threeFiles.Replaceable path) ∧
      ∃ predicted, (convertFiles oneCharacterClass {} false threeFiles threePaths).outcome =
          .ok predicted ∧
        predicted.map Report.status = [.converted, .failed, .skipped] ∧
        real.outcome = .ok (predicted.map Report.withoutOutput) ∧
        ∃ text access, predicted.map Report.output = [some text, none, none] ∧
          real.files.find? [['w'], ['a']] = some (.file (Text.encodeUtf8 text) access) := by
  have apart : threeFiles.Apart threePaths := by decide
  have replaceable : ∀ path ∈ threePaths, threeFiles.Replaceable path := by
    intro path member names bytes access placed found readable
    simp only [threePaths, List.mem_cons, List.not_mem_nil, or_false] at member
    rcases member with rfl | rfl | rfl <;> cases placed <;> cases found <;> rfl
  obtain ⟨_, _, ended⟩ :=
    dry_run_predicts oneCharacterClass {} threeFiles _ _ apart replaceable rfl
  obtain ⟨same, texts⟩ := ended _ rfl
  rcases texts "a" _ List.mem_cons_self with
    ⟨other, _⟩ | ⟨_, text, names, bytes, access, kept, placed, stored, rfl, _⟩
  · exact absurd rfl other
  · cases kept
    cases placed
    exact ⟨apart, replaceable, _, rfl, rfl, congrArg _ same, _, access, rfl, stored⟩

end OptionsApi
