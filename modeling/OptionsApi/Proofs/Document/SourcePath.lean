import OptionsApi.Proofs.Document.Atomicity

/-! A document keeps the path it came from, whatever a conversion does to its text. -/

set_option autoImplicit false

namespace OptionsApi

open Effect (Spares)

def Session.path (session : Session) : Option Text := session.document.path

namespace Action

theorem note_keeps_path (message : Text) : Spares Session.path (note message) :=
  Spares.modify fun _ => rfl

theorem change_keeps_path {edit : Document → Document}
    (kept : ∀ document, (edit document).path = document.path) :
    Spares Session.path (change edit) :=
  Spares.modify fun session => kept session.document

theorem edit_keeps_path {change : Document → Except EditError Document}
    (kept : ∀ document edited, change document = .ok edited → edited.path = document.path) :
    Spares Session.path (edit change) := by
  intro before outcome after ran
  simp only [edit, Effect.run_bind, run_get] at ran
  split at ran
  next document edited =>
    cases ran
    exact kept before.document document edited
  next =>
    cases ran
    rfl

theorem remove_keeps_path (start stop : Int) : Spares Session.path (remove start stop) := by
  refine Spares.get.bind fun session => Spares.bind ?_ fun _ => note_keeps_path _
  apply edit_keeps_path
  intro document edited removed
  rw [Document.remove] at removed
  split at removed
  · cases removed
    rfl
  · cases removed

theorem register_keeps_path (registration : Registration) (moduleName : Text) (names : List Text) :
    Spares Session.path (register registration moduleName names) := by
  cases registration with
  | record => exact Spares.modify fun _ => rfl
  | edit =>
    refine Spares.get.bind fun session => Spares.bind (change_keeps_path fun _ => rfl) fun _ => ?_
    split
    · exact Spares.pure _
    · exact note_keeps_path _
    · exact note_keeps_path _

theorem format_keeps_path (indent : Int) : Spares Session.path (format indent) := by
  unfold format
  split
  · exact change_keeps_path fun _ => rfl
  · exact Spares.throw _

end Action

theorem Component.replaceClass_keeps_path (settings : Settings) (registration : Registration)
    (component : Component) :
    Spares Session.path (component.replaceClass settings registration) := by
  refine Spares.bind ?_ fun ((tree, name), journal) => ?_
  · intro before outcome after ran
    exact congrArg Document.path (Action.build_spares _ before outcome after ran)
  dsimp only
  split
  · exact Spares.throw _
  · refine (Action.remove_keeps_path _ _).bind fun _ => ?_
    refine Spares.bind (Action.change_keeps_path fun _ => rfl) fun _ => ?_
    refine (Spares.forM (fun _ => Action.register_keeps_path registration _ _) _).bind fun _ => ?_
    refine (Action.format_keeps_path _).bind fun _ => ?_
    exact (Action.note_keeps_path _).bind fun _ => Spares.pure _

theorem convertDocument_keeps_path (extract : Extractor) (settings : Settings)
    (registration : Registration) :
    Spares Session.path (convertDocument extract settings registration) := by
  refine Spares.get.bind fun session => ?_
  dsimp only
  split
  · exact Spares.throw _
  · exact (Action.note_keeps_path _).bind fun _ => Spares.pure _
  · exact (Component.replaceClass_keeps_path settings registration _).bind fun _ => Spares.pure _

end OptionsApi
