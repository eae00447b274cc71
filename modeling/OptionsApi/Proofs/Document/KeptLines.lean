import OptionsApi.Proofs.Document.Atomicity
import OptionsApi.Proofs.Layout.Absorption
import OptionsApi.Proofs.Text.Cut
import OptionsApi.Proofs.Text.InkLines

/-! A conversion loses and invents no line. Formatting moves lines and drops blank ones, so the ink of
the document afterwards is the ink of what the class left behind, of its documentation and of the
export statement. -/

set_option autoImplicit false

namespace OptionsApi

open Effect (Spares Turns)
open Text (Within inkOf inkLines)

/-! Formatting. -/

namespace Layout

theorem inkOf_placeLines (indent : Nat) (state : State) (lines : List Text) :
    inkOf ((state.placeLines indent lines).1.map PlacedLine.text) = inkOf lines := by
  induction lines generalizing state with
  | nil => rfl
  | cons line rest ih =>
    have trimmed : Text.trim (state.placeLine indent line).1 = Text.trim line := by
      rcases state.placeLine_text indent line with ⟨_, same⟩ | ⟨_, count, same⟩
      · rw [same]
      · rw [same, Text.trim_append_of_blank (Text.Blank.spaces count), Text.trim_trim]
    rw [Text.inkOf_cons line rest, ← Text.inkOf_singleton_congr trimmed, ← ih]
    exact Text.inkOf_cons _ _

theorem inkOf_squeeze (afterEmpty : Bool) (placed : List PlacedLine) :
    inkOf (squeeze afterEmpty placed) = inkOf (placed.map PlacedLine.text) := by
  induction placed generalizing afterEmpty with
  | nil => rfl
  | cons line rest ih =>
    rw [squeeze, List.map_cons, Text.inkOf_cons]
    split
    next dropped =>
      simp only [Bool.and_eq_true] at dropped
      rw [ih, List.isEmpty_iff.mp dropped.1.1]
      rfl
    next => rw [Text.inkOf_cons, ih]

theorem inkOf_dropTrailingEmpty (lines : List Text) : inkOf (dropTrailingEmpty lines) = inkOf lines := by
  obtain ⟨count, whole⟩ := exists_dropTrailingEmpty lines
  have inkless : inkOf (List.replicate count []) = [] := by
    apply Text.inkOf_of_blank
    intro line member
    rw [List.eq_of_mem_replicate member]
    exact Text.Blank.nil
  conv => rhs; rw [← whole]
  rw [Text.inkOf_append, inkless, List.append_nil]

/-- Formatting moves the lines of a text and drops blank ones, and that is all. -/
theorem inkLines_format (indent : Int) (text : Text) : inkLines (format indent text) = inkLines text := by
  rw [inkLines, lines_format, Text.inkOf_append, layOutLines, inkOf_dropTrailingEmpty, inkOf_squeeze,
    inkOf_placeLines]
  exact List.append_nil _

end Layout

/-! What a class leaves behind. -/

inductive LineEnd : Text → Prop where
  | feed {blanks : Text} : Within Text.isInlineBlank blanks → LineEnd (blanks ++ ['\n'])
  | returnFeed {blanks : Text} : Within Text.isInlineBlank blanks → LineEnd (blanks ++ ['\r', '\n'])

/-- The text without a span, and without the rest of its last line if nothing stands there. -/
inductive Document.Removed (text : Text) (start stop : Int) : Text → Prop where
  | toLineEnd {before span ending behind : Text} : text = before ++ span ++ ending ++ behind →
      before.length = start → (before ++ span).length = stop → LineEnd ending →
      Removed text start stop (before ++ behind)
  | span {before span behind : Text} : text = before ++ span ++ behind → before.length = start →
      (before ++ span).length = stop → (∀ ending, LineEnd ending → ¬ ending <+: behind) →
      Removed text start stop (before ++ behind)

namespace Document

theorem lineEndLength_of_lineEnd {ending : Text} (ends : LineEnd ending) (behind : Text) :
    lineEndLength (ending ++ behind) = ending.length := by
  cases ends with
  | feed inline =>
    have stops : Text.Stops Text.isInlineBlank ('\n' :: behind) := by rintro c ⟨⟩; rfl
    rw [List.append_assoc, List.singleton_append, lineEndLength,
      Text.takeWhile_append_of_stops inline stops, Text.dropWhile_append_of_stops inline stops]
    simp
  | returnFeed inline =>
    have stops : Text.Stops Text.isInlineBlank ('\r' :: '\n' :: behind) := by rintro c ⟨⟩; rfl
    rw [List.append_assoc, List.cons_append, List.singleton_append, lineEndLength,
      Text.takeWhile_append_of_stops inline stops, Text.dropWhile_append_of_stops inline stops]
    simp

theorem lineEndLength_of_none {behind : Text} (unended : ∀ ending, LineEnd ending → ¬ ending <+: behind) :
    lineEndLength behind = 0 := by
  have whole := List.takeWhile_append_dropWhile (p := Text.isInlineBlank) (l := behind)
  have inline : Within Text.isInlineBlank (behind.takeWhile Text.isInlineBlank) :=
    fun c member => List.all_eq_true.mp List.all_takeWhile c member
  rw [lineEndLength]
  split
  next rest same =>
    rw [same] at whole
    exact absurd ⟨rest, by simpa using whole⟩ (unended _ (.returnFeed inline))
  next rest same =>
    rw [same] at whole
    exact absurd ⟨rest, by simpa using whole⟩ (unended _ (.feed inline))
  next => rfl

def withoutSpan (start stop : Int) (text : Text) : Text :=
  text.take start.toNat ++ text.drop (removalEnd text stop.toNat)

theorem withoutSpan_append {before span behind : Text} {start stop : Int} (first : before.length = start)
    (last : (before ++ span).length = stop) :
    withoutSpan start stop (before ++ span ++ behind) =
      before ++ behind.drop (lineEndLength behind) := by
  subst first last
  have dropped : (before ++ span ++ behind).drop (before ++ span).length = behind := by simp
  have kept : (before ++ span ++ behind).take before.length = before := by simp
  rw [withoutSpan, removalEnd, Int.toNat_natCast, Int.toNat_natCast, dropped, kept, ← List.drop_drop,
    dropped]

/-- For a span of the text there is one such text, the one that taking the span out leaves. -/
theorem removed_iff {text : Text} {start stop : Int}
    (inside : 0 ≤ start ∧ start ≤ stop ∧ stop ≤ text.length) (rest : Text) :
    Removed text start stop rest ↔ rest = withoutSpan start stop text := by
  constructor
  · rintro (⟨rfl, first, last, ends⟩ | ⟨rfl, first, last, unended⟩)
    · rw [List.append_assoc _ _ _, withoutSpan_append first last, lineEndLength_of_lineEnd ends]
      simp
    · rw [withoutSpan_append first last, lineEndLength_of_none unended]
      simp
  · rintro rfl
    let before := text.take start.toNat
    let span := (text.take stop.toNat).drop start.toNat
    let behind := text.drop stop.toNat
    have upTo : before ++ span = text.take stop.toNat := by
      have shorter : before = (text.take stop.toNat).take start.toNat := by
        rw [List.take_take, Nat.min_eq_left (by omega)]
      rw [shorter]
      exact List.take_append_drop _ _
    have whole : before ++ span ++ behind = text := by rw [upTo]; exact List.take_append_drop _ _
    have first : (before.length : Int) = start := by simp only [before, List.length_take]; omega
    have last : ((before ++ span).length : Int) = stop := by
      rw [upTo, List.length_take]
      omega
    rw [← whole, withoutSpan_append first last]
    by_cases ended : ∃ ending, LineEnd ending ∧ ending <+: behind
    · obtain ⟨ending, ends, rest, same⟩ := ended
      rw [← same, lineEndLength_of_lineEnd ends, List.drop_left, ← List.append_assoc]
      exact .toLineEnd rfl first last ends
    · have unended : ∀ ending, LineEnd ending → ¬ ending <+: behind :=
        fun ending ends here => ended ⟨ending, ends, here⟩
      rw [lineEndLength_of_none unended, List.drop_zero]
      exact .span rfl first last unended

end Document

/-! The edits of a conversion. -/

theorem Document.inkLines_appendExport (expression : Text) (lead : Option Text) (document : Document) :
    inkLines (document.appendExport expression lead).text =
      inkLines document.text ++ inkLines (lead.getD []) ++
        inkLines ("export default " ++ expression ++ ";") := by
  let body := Text.trimEnd document.text
  let statement : Text := "export default " ++ expression ++ ";"
  have behindGap (behind : Text) :
      inkLines (body ++ (if body.isEmpty then [] else ['\n', '\n']) ++ behind) =
        inkLines document.text ++ inkLines behind := by
    rw [← Text.inkLines_trimEnd document.text]
    split
    next empty =>
      have blank : Text.trimEnd document.text = [] := List.isEmpty_iff.mp empty
      simp only [body, blank]
      rfl
    next =>
      rw [List.append_assoc]
      change inkLines (body ++ '\n' :: ([] ++ '\n' :: behind)) = _
      rw [Text.inkLines_append_lineFeed, Text.inkLines_append_lineFeed]
      rfl
  have documented : inkLines (exportStatement expression lead) =
      inkLines (lead.getD []) ++ inkLines statement := by
    unfold exportStatement
    split
    next c rest =>
      change inkLines (Text.trim (c :: rest) ++ ['\n'] ++ statement) = _
      rw [List.append_assoc, List.singleton_append, Text.inkLines_append_lineFeed, Text.inkLines_trim,
        Option.getD_some]
    next other =>
      rcases lead with _ | _ | ⟨c, rest⟩
      · rfl
      · rfl
      · exact absurd rfl (other c rest)
  have closing : Text.Blank ['\n'] := by decide
  calc inkLines (document.appendExport expression lead).text
      = inkLines (body ++ (if body.isEmpty then [] else ['\n', '\n']) ++
          exportStatement expression lead ++ ['\n']) := rfl
    _ = inkLines document.text ++ inkLines (exportStatement expression lead) := by
        rw [Text.inkLines_append_blank _ closing, behindGap]
    _ = _ := by rw [documented, List.append_assoc]

namespace Action

theorem change_turns (edit : Document → Document) : Turns Session.document edit (change edit) := by
  intro before value after ran
  cases ran
  rfl

theorem format_turns (indent : Int) : Turns Session.document (·.format indent) (format indent) := by
  unfold format
  split
  · exact change_turns _
  · intro before value after ran
    cases ran

theorem note_spares (message : Text) : Spares Session.document (note message) :=
  Spares.modify fun _ => rfl

theorem remove_turns (start stop : Int) :
    Turns Session.document (fun document =>
        { document with text := Document.withoutSpan start stop document.text })
      (remove start stop) := by
  intro before value after ran
  simp only [remove, edit, Document.remove, Effect.run_bind, run_get] at ran
  by_cases inside : 0 ≤ start ∧ start ≤ stop ∧ stop ≤ before.document.text.length
  · simp only [if_pos inside] at ran
    cases ran
    rfl
  · simp only [if_neg inside] at ran
    cases ran

theorem register_spares (moduleName : Text) (names : List Text) :
    Spares Session.document (register .record moduleName names) :=
  Spares.modify fun _ => rfl

end Action

def Component.imports (settings : Settings) (component : Component) : ImportQueue :=
  ((component.assemble settings).run.run {}).2.imports

/-- Without imports to write, a conversion takes the class out, appends the export and formats. -/
theorem Component.replaceClass_document {settings : Settings} {registration : Registration}
    {component : Component} {session after : Session} {converted : Converted}
    (unwritten : registration = .record ∨ component.imports settings = [])
    (ran : (component.replaceClass settings registration).run.run session = (.ok converted, after)) :
    ∃ tree expression, component.tree settings = .ok tree ∧
      tree.render settings.indent = .ok expression ∧
      (0 ≤ component.head.start ∧ component.head.start ≤ component.head.stop ∧
        component.head.stop ≤ session.document.text.length) ∧
      after.document = ({ session.document with
          text := Document.withoutSpan component.head.start component.head.stop
            session.document.text }.appendExport expression
              (classDocumentation? component.head.docs)).format settings.indent := by
  have clear : ¬ (component.obstacle? settings session.document.text).isSome := by
    have outcome := component.replaceClass_outcome settings registration session
    rw [ran] at outcome
    cases obstacle : component.obstacle? settings session.document.text with
    | none => simp
    | some failure =>
      rw [obstacle] at outcome
      cases outcome
  simp only [Component.isSome_obstacle?, not_or, not_exists, Classical.not_not] at clear
  obtain ⟨buildable, usable, inside⟩ := clear
  cases assembled : (component.assemble settings).run.run {} with
  | mk outcome journal =>
    have built : component.tree settings = outcome := congrArg Prod.fst assembled
    cases outcome with
    | error error => exact absurd built (buildable error)
    | ok tree =>
      rcases Component.render_of_tree built settings.indent with
        ⟨error, unusable, _⟩ | ⟨width, expression, _, rendered⟩
      · exact absurd unusable (usable error)
      refine ⟨tree, expression, built, rendered, inside, ?_⟩
      obtain ⟨name, named⟩ := Component.run_named_of_assemble assembled
      rw [Component.replaceClass, Effect.run_bind, Action.build_run, named] at ran
      simp only [rendered] at ran
      have requested : Spares Session.document (journal.imports.forM
          fun request => Action.register registration request.1 request.2) := by
        rcases unwritten with rfl | unrequested
        · exact Spares.forM (fun _ => Action.register_spares _ _) _
        · have empty : journal.imports = [] := by rw [← unrequested, Component.imports, assembled]
          rw [empty]
          exact Spares.pure _
      have turns := (Action.remove_turns component.head.start component.head.stop).bind fun _ =>
        (Action.change_turns (·.appendExport expression (classDocumentation? component.head.docs))).bind
          fun _ => requested.turns.bind fun _ => (Action.format_turns settings.indent).bind
            fun _ => ((Action.note_spares ("Converted component " ++ name)).bind fun _ =>
              Spares.pure (⟨name, journal.diagnostics⟩ : Converted)).turns
      have edited := turns _ _ _ ran
      exact edited

theorem convertDocument_run_of_found {extract : Extractor} (settings : Settings)
    (registration : Registration) {component : Component} (session : Session)
    (found : extract session.document = .ok (some component)) :
    (convertDocument extract settings registration).run.run session =
      (((component.replaceClass settings registration).run.run session).1.map some,
        ((component.replaceClass settings registration).run.run session).2) := by
  rw [convertDocument, Effect.run_bind, Action.run_get]
  simp only [found]
  rw [Effect.run_bind]
  obtain ⟨outcome, after⟩ := (component.replaceClass settings registration).run.run session
  cases outcome <;> rfl

/-- A conversion loses and invents no line. If no imports are written, the ink of the document
afterwards is that of the text without the class, of the documentation of the class and of the export
statement, in this order. -/
theorem conversion_keeps_ink (extract : Extractor) (settings : Settings) (registration : Registration)
    (workspace : Workspace) (component : Component) (converted : Converted)
    (found : extract workspace.document = .ok (some component))
    (unwritten : registration = .record ∨ component.imports settings = [])
    (done : (workspace.perform (.convert extract settings registration)).outcome =
      .ok (some converted)) :
    ∃ tree expression rest, component.tree settings = .ok tree ∧
      tree.render settings.indent = .ok expression ∧
      (∀ other, Document.Removed workspace.document.text component.head.start component.head.stop other ↔
        other = rest) ∧
      inkLines (workspace.perform (.convert extract settings registration)).workspace.document.text =
        inkLines rest ++ inkLines ((classDocumentation? component.head.docs).getD []) ++
          inkLines ("export default " ++ expression ++ ";") := by
  have converting := convertDocument_run_of_found settings registration
    { document := workspace.document } found
  simp only [Workspace.perform, Workspace.act, converting] at done ⊢
  cases ran : (component.replaceClass settings registration).run.run
      { document := workspace.document } with
  | mk outcome after =>
    rw [ran] at done
    cases outcome with
    | error failure => cases done
    | ok value =>
      obtain ⟨tree, expression, built, rendered, inside, document⟩ :=
        Component.replaceClass_document unwritten ran
      refine ⟨tree, expression, _, built, rendered, Document.removed_iff inside, ?_⟩
      rw [document, Document.format, Layout.inkLines_format, Document.inkLines_appendExport]

def classInTheMiddle : Component where
  head := { name := some ['A'], start := 2, stop := 3, docs := [{ fullText := ['/', '/', 'd', ' '] }] }
  props := [{ field := { name := ['p'], type := some { text := ['T'] } } }]

/-- The blank rest of the line of the class goes with it, and the import it needs is only recorded. -/
theorem classInTheMiddle_keeps_ink :
    let workspace : Workspace :=
      { document := { text := ['a', '\n', 'K', ' ', '\r', '\n', ' ', '`', '\n', '\n', ' ', 'b'] } }
    let converting := workspace.perform
      (.convert (fun _ => .ok (some classInTheMiddle)) { indent := 1 } .record)
    (∃ converted, converting.outcome = .ok (some converted)) ∧ converting.requests.length = 1 ∧
      ∃ tree expression, classInTheMiddle.tree { indent := 1 } = .ok tree ∧
        tree.render 1 = .ok expression ∧
        inkLines converting.workspace.document.text =
          [['a'], ['`'], ['b'], ['/', '/', 'd']] ++ inkLines ("export default " ++ expression ++ ";") := by
  refine ⟨⟨_, rfl⟩, rfl, ?_⟩
  obtain ⟨tree, expression, rest, built, rendered, removed, kept⟩ := conversion_keeps_ink
    (fun _ => .ok (some classInTheMiddle)) { indent := 1 } .record
    { document := { text := ['a', '\n', 'K', ' ', '\r', '\n', ' ', '`', '\n', '\n', ' ', 'b'] } }
    classInTheMiddle _ rfl (.inl rfl) rfl
  have ended : LineEnd ([' '] ++ ['\r', '\n']) := .returnFeed (by decide)
  have behind := (removed _).mp
    (@Document.Removed.toLineEnd _ _ _ ['a', '\n'] ['K'] _ _ rfl rfl rfl ended)
  subst behind
  exact ⟨tree, expression, built, rendered, kept⟩

end OptionsApi
