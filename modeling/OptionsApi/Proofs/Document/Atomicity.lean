import OptionsApi.Document.Workspace
import OptionsApi.Proofs.Effect
import OptionsApi.Proofs.Import.Insertion
import OptionsApi.Proofs.OptionsObject.Shape

/-! Failed operations leave the document alone. A conversion edits the document only when nothing
can fail any more: the tree that was built is printed, and each later edit is one that succeeds. -/

set_option autoImplicit false

namespace OptionsApi

open Effect (NeverFails Atomic Spares Fails)

namespace Action

theorem run_get (session : Session) :
    (MonadState.get : Action Session).run.run session = (.ok session, session) := rfl

theorem note_neverFails (message : Text) : NeverFails (note message) := NeverFails.modify _

theorem change_neverFails (edit : Document → Document) : NeverFails (change edit) :=
  NeverFails.modify _

theorem ensureImport_neverFails (moduleName : Text) (names : List Text) :
    NeverFails (ensureImport moduleName names) := by
  refine NeverFails.get.bind fun session => (change_neverFails _).bind fun _ => ?_
  split
  · exact NeverFails.pure _
  · exact note_neverFails _
  · exact note_neverFails _

theorem register_neverFails (registration : Registration) (moduleName : Text) (names : List Text) :
    NeverFails (register registration moduleName names) := by
  cases registration with
  | edit => exact ensureImport_neverFails moduleName names
  | record => exact NeverFails.modify _

theorem edit_atomic (change : Document → Except EditError Document) :
    Atomic Session.document (edit change) := by
  refine Atomic.bind_of_spares Spares.get fun session => ?_
  split
  · exact (NeverFails.modify _).atomic
  · exact (Spares.throw _).atomic

theorem remove_atomic (start stop : Int) : Atomic Session.document (remove start stop) := by
  refine Atomic.bind_of_spares Spares.get fun session => ?_
  exact (edit_atomic _).bind_of_neverFails fun _ => note_neverFails _

theorem format_atomic (indent : Int) : Atomic Session.document (format indent) := by
  unfold format
  split
  · exact (change_neverFails _).atomic
  · exact (Spares.throw _).atomic

theorem format_neverFails {indent : Int} {width : Nat}
    (usable : Layout.indentWidth indent = .ok width) : NeverFails (format indent) := by
  unfold format
  rw [usable]
  exact change_neverFails _

theorem build_run {α : Type} (step : Build α) (session : Session) :
    (build step).run.run session =
      (match (step.run.run {}).1 with
        | .ok value => .ok (value, (step.run.run {}).2)
        | .error refusal => .error refusal.failure,
        { session with
          diagnostics := session.diagnostics ++ (step.run.run {}).2.diagnostics
          log := session.log ++ (step.run.run {}).2.log }) := by
  unfold build
  obtain ⟨outcome, journal⟩ := step.run.run {}
  cases outcome with
  | ok value => rfl
  | error refusal => rfl

theorem build_spares {α : Type} (step : Build α) : Spares Session.document (build step) := by
  intro before outcome after ran
  rw [build_run] at ran
  cases ran
  rfl

theorem remove_run (start stop : Int) (session : Session) :
    if 0 ≤ start ∧ start ≤ stop ∧ stop ≤ session.document.text.length then
      ∃ after, (remove start stop).run.run session = (.ok (), after)
    else (remove start stop).run.run session = (.error (.edit (.spanOutside start stop)), session) := by
  by_cases inside : 0 ≤ start ∧ start ≤ stop ∧ stop ≤ session.document.text.length
  · rw [if_pos inside]
    simp only [remove, edit, Document.remove, Effect.run_bind, run_get, if_pos inside]
    exact ⟨_, rfl⟩
  · rw [if_neg inside]
    simp only [remove, edit, Document.remove, Effect.run_bind, run_get, if_neg inside]
    rfl

end Action

/-! The conversion. -/

theorem Component.text_of_tree {settings : Settings} {component : Component} {tree : Node}
    (built : component.tree settings = .ok tree) (indent : Int) :
    ∃ text, tree.text? indent = .ok text := by
  have suits : settings.Suits fun _ => True := ⟨fun _ _ => trivial, trivial, fun _ _ => trivial⟩
  obtain ⟨options, rfl, fits⟩ := Component.assemble_isValue suits (fun _ _ => trivial)
    (fun _ _ => trivial) (Component.returns_of_tree built)
  obtain ⟨text, _, printed⟩ := fits.text_call indent settings.factory
  exact ⟨_, printed⟩

/-- Only the indentation can keep the tree of a component from being printed. -/
theorem Component.render_of_tree {settings : Settings} {component : Component} {tree : Node}
    (built : component.tree settings = .ok tree) (indent : Int) :
    (∃ error, Layout.indentWidth indent = .error error ∧ tree.render indent = .error (.indent error)) ∨
      ∃ width text, Layout.indentWidth indent = .ok width ∧ tree.render indent = .ok text := by
  obtain ⟨text, printed⟩ := Component.text_of_tree built indent
  unfold Node.render
  cases Layout.indentWidth indent with
  | error error => exact .inl ⟨error, rfl, rfl⟩
  | ok width => exact .inr ⟨width, text, rfl, by rw [printed]; rfl⟩

theorem Node.usable_of_render {node : Node} {indent : Int} {text : Text}
    (rendered : node.render indent = .ok text) : ∃ width, Layout.indentWidth indent = .ok width := by
  rw [Node.render] at rendered
  split at rendered
  next => cases rendered
  next width usable => exact ⟨width, usable⟩

/-- Everything behind the first edit. The tree was printed with the indentation that the text is
formatted with, so the indentation is known to be usable. -/
theorem Component.edits_neverFail (settings : Settings) (registration : Registration)
    (component : Component) {tree : Node} {expression : Text}
    (rendered : tree.render settings.indent = .ok expression) (name : Text) (journal : Journal) :
    NeverFails (do
      Action.change (·.appendExport expression (classDocumentation? component.head.docs))
      journal.imports.forM fun (moduleName, names) => Action.register registration moduleName names
      Action.format settings.indent
      Action.note ("Converted component " ++ name)
      return (⟨name, journal.diagnostics⟩ : Converted)) := by
  obtain ⟨width, usable⟩ := Node.usable_of_render rendered
  refine (Action.change_neverFails _).bind fun _ => ?_
  refine (NeverFails.forM (fun _ => Action.register_neverFails registration _ _) _).bind fun _ => ?_
  refine (Action.format_neverFails usable).bind fun _ => ?_
  exact (Action.note_neverFails _).bind fun _ => NeverFails.pure _

theorem Component.replaceClass_atomic (settings : Settings) (registration : Registration)
    (component : Component) :
    Atomic Session.document (component.replaceClass settings registration) := by
  refine Atomic.bind_of_spares (Action.build_spares _) fun ((tree, name), journal) => ?_
  -- Building and printing come first; taking the class out is the last step that can fail.
  dsimp only
  split
  next => exact (Spares.throw _).atomic
  next expression rendered =>
    exact (Action.remove_atomic _ _).bind_of_neverFails fun _ =>
      Component.edits_neverFail settings registration component rendered name journal

theorem convertDocument_atomic (extract : Extractor) (settings : Settings)
    (registration : Registration) :
    Atomic Session.document (convertDocument extract settings registration) := by
  refine Atomic.bind_of_spares Spares.get fun session => ?_
  dsimp only
  split
  · exact (Spares.throw _).atomic
  · exact ((Action.note_neverFails _).bind fun _ => NeverFails.pure _).atomic
  · exact (Component.replaceClass_atomic settings registration _).bind_of_neverFails
      fun _ => NeverFails.pure _

/-- What keeps the class of a component from being replaced in a text, if anything does. -/
def Component.obstacle? (settings : Settings) (component : Component) (text : Text) :
    Option Failure :=
  match component.tree settings with
  | .error refusal => some refusal.failure
  | .ok _ =>
    match Layout.indentWidth settings.indent with
    | .error error => some (.indent error)
    | .ok _ =>
      if 0 ≤ component.head.start ∧ component.head.start ≤ component.head.stop ∧
          component.head.stop ≤ text.length then none
      else some (.edit (.spanOutside component.head.start component.head.stop))

theorem Component.isSome_obstacle? (settings : Settings) (component : Component) (text : Text) :
    (component.obstacle? settings text).isSome ↔
      (∃ refusal, component.tree settings = .error refusal) ∨
      (∃ error, Layout.indentWidth settings.indent = .error error) ∨
      ¬ (0 ≤ component.head.start ∧ component.head.start ≤ component.head.stop ∧
        component.head.stop ≤ text.length) := by
  unfold obstacle?
  cases component.tree settings with
  | error error => simp
  | ok tree =>
    cases Layout.indentWidth settings.indent with
    | error error => exact iff_of_true rfl (.inr (.inl ⟨error, rfl⟩))
    | ok width =>
      dsimp only
      split
      next inside => simp [inside]
      next outside => simp only [Option.isSome_some, outside, not_false_iff, or_true]

theorem Component.run_named_of_assemble {settings : Settings} {component : Component} {tree : Node}
    {journal : Journal} (assembled : (component.assemble settings).run.run {} = (.ok tree, journal)) :
    ∃ name, (do return (← component.assemble settings, ← component.head.requireName) :
      Build (Node × Text)).run.run {} = (.ok (tree, name), journal) := by
  -- Asking for the name leaves the journal alone.
  obtain ⟨name, required⟩ := Component.name_of_assemble ⟨{}, journal, assembled⟩
  refine ⟨name, ?_⟩
  simp only [Effect.run_bind, assembled, required]
  rfl

/-- The class is replaced unless there is an obstacle, and then that is the failure. -/
theorem Component.replaceClass_outcome (settings : Settings) (registration : Registration)
    (component : Component) (session : Session) :
    match component.obstacle? settings session.document.text with
    | some failure => ((component.replaceClass settings registration).run.run session).1 = .error failure
    | none => ∃ converted,
        ((component.replaceClass settings registration).run.run session).1 = .ok converted := by
  let step : Build (Node × Text) :=
    do return (← component.assemble settings, ← component.head.requireName)
  have started := Action.build_run step session
  rw [Component.replaceClass, Effect.run_bind, started, obstacle?]
  cases assembled : (component.assemble settings).run.run {} with
  | mk outcome journal =>
    have built : component.tree settings = outcome := congrArg Prod.fst assembled
    cases outcome with
    | error error =>
      -- The tree is built before the name is asked for, so its error is that of the whole step.
      have failed : (step.run.run {}).1 = .error error := by
        simp only [step, Effect.run_bind, assembled]
      simp only [built, failed]
    | ok tree =>
      obtain ⟨name, ran⟩ : ∃ name, step.run.run {} = (.ok (tree, name), journal) :=
        Component.run_named_of_assemble assembled
      simp only [built, ran]
      rcases Component.render_of_tree built settings.indent with
        ⟨error, unusable, refused⟩ | ⟨width, expression, usable, rendered⟩
      · simp only [unusable, refused]
        rfl
      · simp only [usable, rendered]
        rw [Effect.run_bind]
        -- Taking the class out does not depend on what the first step left in the session.
        have removed := Action.remove_run component.head.start component.head.stop
          { session with
            diagnostics := session.diagnostics ++ journal.diagnostics
            log := session.log ++ journal.log }
        dsimp only at removed
        by_cases inside : 0 ≤ component.head.start ∧ component.head.start ≤ component.head.stop ∧
            component.head.stop ≤ session.document.text.length
        · rw [if_pos inside] at removed ⊢
          obtain ⟨after, ran⟩ := removed
          obtain ⟨converted, last, finished⟩ := Component.edits_neverFail settings registration
            component rendered name journal after
          refine ⟨converted, ?_⟩
          rw [ran]
          exact congrArg Prod.fst finished
        · rw [if_neg inside] at removed ⊢
          rw [removed]

def Document.obstacle? (extract : Extractor) (settings : Settings) (document : Document) :
    Option Failure :=
  match extract document with
  | .error failure => some failure
  | .ok none => none
  | .ok (some component) => component.obstacle? settings document.text

theorem convertDocument_outcome (extract : Extractor) (settings : Settings)
    (registration : Registration) (session : Session) :
    match session.document.obstacle? extract settings with
    | some failure =>
      ((convertDocument extract settings registration).run.run session).1 = .error failure
    | none => ∃ converted,
        ((convertDocument extract settings registration).run.run session).1 = .ok converted := by
  rw [convertDocument, Effect.run_bind, Action.run_get, Document.obstacle?]
  dsimp only
  cases extract session.document with
  | error failure => rfl
  | ok found =>
    cases found with
    | none => exact ⟨none, rfl⟩
    | some component =>
      have outcome := component.replaceClass_outcome settings registration session
      dsimp only
      rw [Effect.run_bind]
      cases ran : (component.replaceClass settings registration).run.run session with
      | mk result after =>
        rw [ran] at outcome
        cases obstacle : component.obstacle? settings session.document.text with
        | some failure =>
          simp only [obstacle] at outcome ⊢
          rw [outcome]
        | none =>
          simp only [obstacle] at outcome ⊢
          obtain ⟨converted, outcome⟩ := outcome
          rw [outcome]
          exact ⟨some converted, rfl⟩

theorem convertDocument_fails_iff (extract : Extractor) (settings : Settings)
    (registration : Registration) (session : Session) :
    Fails (convertDocument extract settings registration) session ↔
      (∃ failure, extract session.document = .error failure) ∨
      ∃ component, extract session.document = .ok (some component) ∧
        ((∃ refusal, component.tree settings = .error refusal) ∨
        (∃ error, Layout.indentWidth settings.indent = .error error) ∨
        ¬ (0 ≤ component.head.start ∧ component.head.start ≤ component.head.stop ∧
          component.head.stop ≤ session.document.text.length)) := by
  have fails : Fails (convertDocument extract settings registration) session ↔
      (session.document.obstacle? extract settings).isSome := by
    have outcome := convertDocument_outcome extract settings registration session
    rw [Effect.fails_iff]
    cases obstacle : session.document.obstacle? extract settings with
    | some failure =>
      rw [obstacle] at outcome
      exact iff_of_true ⟨failure, outcome⟩ rfl
    | none =>
      rw [obstacle] at outcome
      obtain ⟨converted, outcome⟩ := outcome
      simp [outcome]
  simp only [fails, ← Component.isSome_obstacle?, Document.obstacle?]
  cases extract session.document with
  | error failure => simp
  | ok found =>
    cases found with
    | none => simp
    | some component => simp

/-! Operations one after another. -/

namespace Workspace

theorem act_of_atomic {action : Action (Option Converted)} (atomic : Atomic Session.document action)
    {workspace : Workspace} {failure : Failure}
    (failed : (workspace.act action).outcome = .error failure) :
    (workspace.act action).workspace.document = workspace.document := by
  cases ran : action.run.run { document := workspace.document } with
  | mk outcome session =>
    simp only [act, ran] at failed ⊢
    subst failed
    exact atomic _ failure session ran

/-- An operation that fails leaves the document as it was. -/
theorem perform_of_failed {operation : Operation} {workspace : Workspace} {failure : Failure}
    (failed : (workspace.perform operation).outcome = .error failure) :
    (workspace.perform operation).workspace.document = workspace.document := by
  cases operation with
  | insert position text =>
    exact act_of_atomic ((Action.edit_atomic _).bind_of_neverFails fun _ => NeverFails.pure _) failed
  | remove start stop =>
    exact act_of_atomic ((Action.remove_atomic start stop).bind_of_neverFails
      fun _ => NeverFails.pure _) failed
  | replace text =>
    exact act_of_atomic ((Action.change_neverFails _).bind fun _ => NeverFails.pure _).atomic failed
  | appendExport expression lead =>
    exact act_of_atomic ((Action.change_neverFails _).bind fun _ => NeverFails.pure _).atomic failed
  | format indent =>
    exact act_of_atomic ((Action.format_atomic indent).bind_of_neverFails
      fun _ => NeverFails.pure _) failed
  | ensureImport moduleName names =>
    exact act_of_atomic ((Action.ensureImport_neverFails moduleName names).bind
      fun _ => NeverFails.pure _).atomic failed
  | convert extract settings registration =>
    exact act_of_atomic (convertDocument_atomic extract settings registration) failed
  | save path =>
    simp only [perform] at failed ⊢
    split at failed
    next => cases failed
    next => rfl
  | load path =>
    simp only [perform] at failed ⊢
    split at failed
    next => cases failed
    next => rfl

/-- The operations one after another, each with the workspace it found and what it did there. -/
def history : List Operation → Workspace → List (Workspace × Performed)
  | [], _ => []
  | operation :: rest, workspace =>
    (workspace, workspace.perform operation) ::
      history rest (workspace.perform operation).workspace

theorem history_of_failed {operations : List Operation} {workspace : Workspace}
    {step : Workspace × Performed} (member : step ∈ history operations workspace)
    {failure : Failure} (failed : step.2.outcome = .error failure) :
    step.2.workspace.document = step.1.document := by
  induction operations generalizing workspace with
  | nil => exact absurd member List.not_mem_nil
  | cons operation rest ih =>
    rcases List.mem_cons.mp member with rfl | later
    · exact perform_of_failed failed
    · exact ih later

theorem convert_fails_iff (extract : Extractor) (settings : Settings) (registration : Registration)
    (workspace : Workspace) :
    (∃ failure, (workspace.perform (.convert extract settings registration)).outcome =
        .error failure) ↔
      Fails (convertDocument extract settings registration) { document := workspace.document } :=
  Effect.fails_iff.symm

end Workspace

/-- Failed operations are atomic. In any sequence of operations, one that fails leaves the text and
the path of the document as it found them. A conversion fails only for what can be told before its
first edit: the extractor failed, building the tree was refused, the indentation is no word, or the
class has no span in the text. For the tree of a component is always printed, and a new import is
inserted at an offset inside the text. -/
theorem failed_operations_atomic :
    (∀ (operations : List Operation) (workspace : Workspace),
      ∀ step ∈ Workspace.history operations workspace, ∀ failure,
        step.2.outcome = .error failure → step.2.workspace.document = step.1.document) ∧
    (∀ (extract : Extractor) (settings : Settings) (workspace : Workspace),
      (∃ failure, (workspace.perform (.convert extract settings .edit)).outcome = .error failure) ↔
        (∃ failure, extract workspace.document = .error failure) ∨
        ∃ component, extract workspace.document = .ok (some component) ∧
          ((∃ refusal, component.tree settings = .error refusal) ∨
          (∃ error, Layout.indentWidth settings.indent = .error error) ∨
          ¬ (0 ≤ component.head.start ∧ component.head.start ≤ component.head.stop ∧
            component.head.stop ≤ workspace.document.text.length))) ∧
    (∀ (settings : Settings) (component : Component) (tree : Node),
      component.tree settings = .ok tree → ∀ indent, ∃ text, tree.text? indent = .ok text) ∧
    ∀ (moduleName : Text) (names missing : List Text) (document : Document),
      (Import.ensure moduleName names document.text).change = .added missing →
        let place := Import.insertion (Import.newStatement moduleName missing) document.text
        place.1 ≤ document.text.length ∧
          document.insert place.1 place.2 =
            .ok (document.replace (Import.ensure moduleName names document.text).text) := by
  refine ⟨?_, ?_, ?_, ?_⟩
  · intro operations workspace step member failure failed
    exact Workspace.history_of_failed member failed
  · intro extract settings workspace
    rw [Workspace.convert_fails_iff, convertDocument_fails_iff]
  · intro settings component tree built indent
    exact Component.text_of_tree built indent
  · intro moduleName names missing document added
    exact Import.insert_of_ensure_added added

def emptyClass (stop : Int) : Component := { head := { name := some ['A'], stop } }

theorem convert_past_end_atomic :
    let workspace : Workspace := { document := { text := ['x'] } }
    let operation := Operation.convert (fun _ => .ok (some (emptyClass 2))) {} .edit
    (workspace.perform operation).outcome = .error (.edit (.spanOutside 0 2)) ∧
      (workspace.perform operation).workspace.document = workspace.document :=
  ⟨rfl, failed_operations_atomic.1 [_] _ _ List.mem_cons_self _ rfl⟩

/-- An indentation that fits no word stops a conversion that nothing else stops. -/
theorem convert_stopped_by_indent :
    let workspace : Workspace := { document := { text := ['x'] } }
    let extract : Extractor := fun _ => .ok (some (emptyClass 1))
    let settings : Settings := { indent := -0x8000000000000001 }
    (∃ failure, (workspace.perform (.convert extract settings .edit)).outcome = .error failure) ∧
      ¬ ((∃ failure, extract workspace.document = .error failure) ∨
        ∃ component, extract workspace.document = .ok (some component) ∧
          ((∃ refusal, component.tree settings = .error refusal) ∨
          ¬ (0 ≤ component.head.start ∧ component.head.start ≤ component.head.stop ∧
            component.head.stop ≤ workspace.document.text.length))) := by
  refine ⟨⟨.indent .notWord, rfl⟩, ?_⟩
  rintro (⟨failure, raised⟩ | ⟨component, found, ⟨refusal, unbuilt⟩ | outside⟩)
  · cases raised
  · cases found
    cases unbuilt
  · cases found
    exact outside (by decide)

end OptionsApi
