import OptionsApi.Proofs.Batch.Steps

/-! Which failures stay with their file. A batch gives one report for each path unless it comes to a
file whose failure is not contained, and then it stops there. -/

set_option autoImplicit false

namespace OptionsApi

inductive Stops (extract : Extractor) (settings : Settings) (write : Bool) (files : FileStore)
    (path : Text) : Prop
  /-- The text is no path. -/
  | path (error : PathError) (unread : Path.read files.unnameable path = .error error)
  /-- The extractor fails, and not with a failure of the component or of the system. -/
  | extractor (document : Document) (failure : Failure) (loaded : files.load path = .ok document)
      (raised : extract document = .error failure) (escapes : failure.isContained = false)
  /-- What is wrong with the component is at a line whose number cannot be written out. -/
  | numeral (document : Document) (component : Component) (error : Text.NumeralError)
      (loaded : files.load path = .ok document) (found : extract document = .ok (some component))
      (refused : component.tree settings = .error (.numeral error))
  /-- There is something to write, but no way to indent it. -/
  | indent (document : Document) (component : Component) (tree : Node) (error : Layout.IndentError)
      (loaded : files.load path = .ok document) (found : extract document = .ok (some component))
      (built : component.tree settings = .ok tree)
      (unusable : Layout.indentWidth settings.indent = .error error)
  /-- The class does not lie in the text. -/
  | span (document : Document) (component : Component) (tree : Node)
      (loaded : files.load path = .ok document) (found : extract document = .ok (some component))
      (built : component.tree settings = .ok tree)
      (outside : ¬ (0 ≤ component.head.start ∧ component.head.start ≤ component.head.stop ∧
        component.head.stop ≤ document.text.length))
  /-- The converted text has a character that no file can hold. -/
  | encoding (document : Document) (converted : Converted) (session : Session) (c : Char)
      (loaded : files.load path = .ok document)
      (ran : (convertDocument extract settings .edit).run.run { document } =
        (.ok (some converted), session))
      (writes : write = true) (allowed : files.mayWrite path = true)
      (member : c ∈ session.document.text) (lacking : c ∈ files.unencodable)

section
variable {extract : Extractor} {settings : Settings} {write : Bool} {files : FileStore} {path : Text}

theorem Failure.isContained_of_load {failure : Failure} (unloaded : files.load path = .error failure) :
    failure.isContained = false ↔ ∃ error, Path.read files.unnameable path = .error error := by
  -- The cases are the stages of a load: the path, the bytes, the text.
  rw [FileStore.load] at unloaded
  cases read : Path.read files.unnameable path with
  | error error =>
    rw [read] at unloaded
    cases unloaded
    exact iff_of_true rfl ⟨error, rfl⟩
  | ok place =>
    simp only [read] at unloaded
    split at unloaded
    next =>
      cases unloaded
      simp [isContained]
    next =>
      split at unloaded
      · cases unloaded
        simp [isContained]
      · cases unloaded

theorem stops_of_obstacle {document : Document} {failure : Failure}
    (loaded : files.load path = .ok document)
    (obstacle : document.obstacle? extract settings = some failure)
    (escapes : failure.isContained = false) : Stops extract settings write files path := by
  rw [Document.obstacle?] at obstacle
  cases answer : extract document with
  | error raised =>
    rw [answer] at obstacle
    injection obstacle with same
    subst same
    exact .extractor document raised loaded answer escapes
  | ok found =>
    rw [answer] at obstacle
    cases found with
    | none => cases obstacle
    | some component =>
      simp only [Component.obstacle?] at obstacle
      cases built : component.tree settings with
      | error refusal =>
        rw [built] at obstacle
        cases refusal with
        | conversion error =>
          -- A failure of the component is contained.
          cases obstacle
          cases escapes
        | numeral error => exact .numeral document component error loaded answer built
      | ok tree =>
        simp only [built] at obstacle
        cases unit : Layout.indentWidth settings.indent with
        | error error => exact .indent document component tree error loaded answer built unit
        | ok width =>
          simp only [unit] at obstacle
          split at obstacle
          next => cases obstacle
          next outside => exact .span document component tree loaded answer built outside

theorem Stops.obstacle {document : Document} (stops : Stops extract settings write files path)
    (loaded : files.load path = .ok document) :
    (∃ failure, document.obstacle? extract settings = some failure ∧ failure.isContained = false) ∨
      ∃ converted session,
        (convertDocument extract settings .edit).run.run { document } =
          (.ok (some converted), session) ∧
        write = true ∧ files.mayWrite path = true ∧
        ∃ c ∈ session.document.text, c ∈ files.unencodable := by
  cases stops with
  | path error unread =>
    rw [FileStore.load, unread] at loaded
    cases loaded
  | extractor other failure same raised escapes =>
    cases same.symm.trans loaded
    exact .inl ⟨failure, by rw [Document.obstacle?, raised], escapes⟩
  | numeral other component error same found refused =>
    cases same.symm.trans loaded
    refine .inl ⟨.numeral error, ?_, rfl⟩
    simp only [Document.obstacle?, found, Component.obstacle?, refused]
    rfl
  | indent other component tree error same found built unusable =>
    cases same.symm.trans loaded
    refine .inl ⟨.indent error, ?_, rfl⟩
    simp only [Document.obstacle?, found, Component.obstacle?, built, unusable]
  | span other component tree same found built outside =>
    cases same.symm.trans loaded
    cases unit : Layout.indentWidth settings.indent with
    | error error =>
      refine .inl ⟨.indent error, ?_, rfl⟩
      simp only [Document.obstacle?, found, Component.obstacle?, built, unit]
    | ok width =>
      refine .inl ⟨.edit (.spanOutside component.head.start component.head.stop), ?_, rfl⟩
      simp only [Document.obstacle?, found, Component.obstacle?, built, unit, if_neg outside]
  | encoding other converted session c same ran writes allowed member lacking =>
    cases same.symm.trans loaded
    exact .inr ⟨converted, session, ran, writes, allowed, c, member, lacking⟩

theorem ending_error_iff {unencodable : List Char} {mayWrite : Bool}
    {tried : Except Failure (Option (Converted × Document))} :
    (∃ failure, ending write unencodable mayWrite path tried = .error failure) ↔
      (∃ failure, tried = .error failure ∧ failure.isContained = false) ∨
      ∃ converted document, tried = .ok (some (converted, document)) ∧ write = true ∧
        mayWrite = true ∧ ∃ c ∈ document.text, c ∈ unencodable := by
  rcases tried with failure | _ | ⟨converted, document⟩
  · rw [ending]
    cases contained : failure.isContained <;> simp [contained]
  · simp [ending]
  · rw [ending]
    cases write with
    | false => simp
    | true =>
      cases mayWrite with
      | false => simp
      | true =>
        constructor
        · rintro ⟨failure, failed⟩
          simp only [if_true] at failed
          split at failed
          next => cases failed
          next error unencoded =>
            exact .inr ⟨converted, document, rfl, rfl, rfl, Text.encode_fails_iff.mp ⟨error, unencoded⟩⟩
        · rintro (⟨_, same, _⟩ | ⟨_, _, same, _, _, lacking⟩) <;> cases same
          obtain ⟨error, unencoded⟩ := Text.encode_fails_iff.mpr lacking
          exact ⟨.encoding error, by simp only [if_true, unencoded]⟩

/-- The work on a file ends without a report exactly if the file stops a batch. -/
theorem convertFile_error_iff :
    (∃ failure, (convertFile extract settings write files path).outcome = .error failure) ↔
      Stops extract settings write files path := by
  rw [convertFile_outcome, ending_error_iff, attempt]
  cases loaded : files.load path with
  | error failure =>
    dsimp only
    constructor
    · rintro (⟨_, same, escapes⟩ | ⟨_, _, same, _⟩) <;> cases same
      obtain ⟨error, unread⟩ := (Failure.isContained_of_load loaded).mp escapes
      exact .path error unread
    · intro stops
      cases stops with
      | path error unread =>
        exact .inl ⟨failure, rfl, (Failure.isContained_of_load loaded).mpr ⟨error, unread⟩⟩
      | extractor _ _ same => cases same.symm.trans loaded
      | numeral _ _ _ same => cases same.symm.trans loaded
      | indent _ _ _ _ same => cases same.symm.trans loaded
      | span _ _ _ same => cases same.symm.trans loaded
      | encoding _ _ _ _ same => cases same.symm.trans loaded
  | ok document =>
    have outcome := convertDocument_outcome extract settings .edit { document }
    rcases ran : (convertDocument extract settings .edit).run.run { document } with ⟨ended, session⟩
    rw [ran] at outcome
    dsimp only at outcome ⊢
    rw [ran]
    constructor
    · rintro (⟨failure, same, escapes⟩ | ⟨converted, last, same, writes, allowed, c, member, lacking⟩)
      · cases obstacle : document.obstacle? extract settings with
        | some other =>
          simp only [obstacle] at outcome
          subst outcome
          cases same
          exact stops_of_obstacle loaded obstacle escapes
        | none =>
          simp only [obstacle] at outcome
          obtain ⟨converted, rfl⟩ := outcome
          cases same
      · rcases ended with failure | _ | value <;> cases same
        exact .encoding document converted session c loaded ran writes allowed member lacking
    · intro stops
      rcases stops.obstacle loaded with
        ⟨failure, obstacle, escapes⟩ | ⟨converted, last, same, writes, allowed, lacking⟩
      · simp only [obstacle] at outcome
        subst outcome
        exact .inl ⟨failure, rfl, escapes⟩
      · cases ran.symm.trans same
        exact .inr ⟨converted, session.document, rfl, writes, allowed, lacking⟩

end

section
variable (extract : Extractor) (settings : Settings) (write : Bool)

/-- The paths of a batch, each with the files as they are when the batch comes to it. -/
def visits (files : FileStore) : List Text → List (FileStore × Text)
  | [] => []
  | path :: paths =>
    (files, path) :: visits (convertFile extract settings write files path).files paths

variable {extract settings write}

theorem exists_reports_iff (files : FileStore) (paths : List Text) :
    (∃ reports, (convertFiles extract settings write files paths).outcome = .ok reports) ↔
      ∀ visit ∈ visits extract settings write files paths,
        ¬ Stops extract settings write visit.1 visit.2 := by
  induction paths generalizing files with
  | nil => exact iff_of_true ⟨[], rfl⟩ fun _ member => absurd member List.not_mem_nil
  | cons path paths ih =>
    have goes : (∃ report, (convertFile extract settings write files path).outcome = .ok report) ↔
        ¬ Stops extract settings write files path := by
      rw [← convertFile_error_iff]
      cases (convertFile extract settings write files path).outcome <;> simp
    rw [visits, List.forall_mem_cons, ← ih, ← goes]
    simp only [convertFiles_cons_eq_ok]
    constructor
    · rintro ⟨_, report, rest, first, later, _⟩
      exact ⟨⟨report, first⟩, rest, later⟩
    · rintro ⟨⟨report, first⟩, rest, later⟩
      exact ⟨_, report, rest, first, later, rfl⟩

theorem paths_of_reports {files : FileStore} {paths : List Text} {reports : List Report}
    (returned : (convertFiles extract settings write files paths).outcome = .ok reports) :
    reports.map Report.path = paths := by
  induction paths generalizing files reports with
  | nil =>
    cases returned
    rfl
  | cons path paths ih =>
    obtain ⟨report, rest, first, later, rfl⟩ := convertFiles_cons_eq_ok.mp returned
    rw [List.map_cons, path_of_convertFile first, ih later]

variable (extract settings write)

/-- A batch comes to an end exactly if no file stops it, and then it has one report for each path, in
the order of the paths. What stops a batch, other than an extractor that fails, is a text that is no
path, a line number too long to be written out, an indentation that is no word, a class that does not
lie in the text and a converted text that no file can hold: such a failure is not kept to its file, and
the files behind it are not converted. -/
theorem convertFiles_returns_iff (files : FileStore) (paths : List Text) :
    ((∃ reports, (convertFiles extract settings write files paths).outcome = .ok reports) ↔
      ∀ visit ∈ visits extract settings write files paths,
        ¬ Stops extract settings write visit.1 visit.2) ∧
    ∀ reports, (convertFiles extract settings write files paths).outcome = .ok reports →
      reports.map Report.path = paths :=
  ⟨exists_reports_iff files paths, fun _ returned => paths_of_reports returned⟩

end

theorem threeFiles_reported :
    ∃ reports, (convertFiles oneCharacterClass {} true threeFiles threePaths).outcome = .ok reports ∧
      reports.map Report.status = [.converted, .failed, .skipped] ∧
      reports.map Report.path = threePaths :=
  ⟨_, rfl, rfl, (convertFiles_returns_iff oneCharacterClass {} true threeFiles _).2 _ rfl⟩

def overlongClass : Extractor := fun document =>
  .ok (some (emptyClass (if document.text = ['y'] then 1 else 9)))

/-- A class that does not lie in its file stops the batch: the next file is not converted, although
on its own it would be. -/
theorem batch_stopped_by_span :
    (∀ document failure, overlongClass document ≠ .error failure) ∧
      (convertFiles overlongClass {} true threeFiles [['a'], ['c']]).outcome =
        .error (.edit (.spanOutside 0 9)) ∧
      (convertFiles overlongClass {} true threeFiles [['a'], ['c']]).files = threeFiles ∧
      (convertFile overlongClass {} true threeFiles ['c']).outcome =
        .ok { path := ['c'], status := .converted, component := some ['A'] } := by
  refine ⟨fun _ _ raised => ?_, rfl, rfl, rfl⟩
  cases raised

end OptionsApi
