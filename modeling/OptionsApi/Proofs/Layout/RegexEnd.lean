import OptionsApi.Proofs.Layout.Literals

/-! Where a regular expression ends. The text behind the opening slash either has a body and the slash
that closes it, and then it has one body only, or it comes to its end inside the literal. Which of the
two it is, and where inside the literal it ends, is said by the grammar of bodies; the scan finds the
same, and goes on in code right behind the literal. -/

set_option autoImplicit false

namespace OptionsApi.Layout

/-! Bodies put together. -/

theorem Enclosed.append {close : Char} {left right : Text} (first : Enclosed close left)
    (second : Enclosed close right) : Enclosed close (left ++ right) := by
  induction first with
  | nil => exact second
  | char noEscape inner _ ih => exact .char noEscape inner ih
  | escape c _ ih => exact .escape c ih

theorem RegexBody.append {left right : Text} (first : RegexBody left) (second : RegexBody right) :
    RegexBody (left ++ right) := by
  induction first with
  | nil => exact second
  | char noEscape noClass noSlash _ ih => exact .char noEscape noClass noSlash ih
  | escape c _ ih => exact .escape c ih
  | charClass enclosed _ ih =>
    rw [List.cons_append, List.append_assoc, List.cons_append]
    exact .charClass enclosed ih

/-! Reading a literal. -/

namespace RegexMode

def Reached : RegexMode → Text → Prop
  | .body, text => RegexBody text
  | .bodyEscape, text => ∃ body, RegexBody body ∧ text = body ++ ['\\']
  | .charClass, text =>
    ∃ body inside, RegexBody body ∧ Enclosed ']' inside ∧ text = body ++ '[' :: inside
  | .charClassEscape, text =>
    ∃ body inside, RegexBody body ∧ Enclosed ']' inside ∧ text = body ++ '[' :: (inside ++ ['\\'])

theorem step_eq_none {mode : RegexMode} {c : Char} (closes : mode.step c = none) :
    mode = .body ∧ c = '/' := by
  cases mode with
  | body =>
    refine ⟨rfl, ?_⟩
    simp only [step] at closes
    grind
  | charClass =>
    simp only [step] at closes
    grind
  | bodyEscape | charClassEscape => cases closes

theorem Reached.step {mode next : RegexMode} {text : Text} {c : Char} (reached : mode.Reached text)
    (stepped : mode.step c = some next) : next.Reached (text ++ [c]) := by
  cases mode with
  | body =>
    simp only [RegexMode.step] at stepped
    split at stepped
    next escape =>
      cases stepped
      exact ⟨text, reached, by rw [escape]⟩
    next noEscape =>
      split at stepped
      next opens =>
        cases stepped
        exact ⟨text, [], reached, .nil, by rw [opens]⟩
      next noClass =>
        split at stepped
        next => cases stepped
        next noSlash =>
          cases stepped
          exact RegexBody.append reached (.char noEscape noClass noSlash .nil)
  | bodyEscape =>
    cases stepped
    obtain ⟨body, isBody, rfl⟩ := reached
    rw [List.append_assoc]
    exact isBody.append (.escape c .nil)
  | charClass =>
    obtain ⟨body, inside, isBody, enclosed, rfl⟩ := reached
    rw [List.append_assoc, List.cons_append]
    simp only [RegexMode.step] at stepped
    split at stepped
    next escape =>
      cases stepped
      exact ⟨body, inside, isBody, enclosed, by rw [escape]⟩
    next noEscape =>
      split at stepped
      next closes =>
        cases stepped
        rw [closes]
        exact isBody.append (.charClass enclosed .nil)
      next inner =>
        cases stepped
        exact ⟨body, inside ++ [c], isBody, enclosed.append (.char noEscape inner .nil), rfl⟩
  | charClassEscape =>
    cases stepped
    obtain ⟨body, inside, isBody, enclosed, rfl⟩ := reached
    exact ⟨body, inside ++ ['\\', c], isBody, enclosed.append (.escape c .nil), by simp⟩

/-- A text read on from inside a literal closes it, or ends inside it together with the scan. -/
theorem Reached.read {mode : RegexMode} {start : Text} (reached : mode.Reached start) (text : Text) :
    (∃ body rest, RegexBody body ∧ start ++ text = body ++ '/' :: rest) ∨
      ∃ last : RegexMode, last.Reached (start ++ text) ∧ ∀ number before brackets, ∃ read,
        Cursor.run number ⟨before, .regex mode, brackets⟩ text = ⟨read, .regex last, brackets⟩ := by
  induction text generalizing mode start with
  | nil => exact .inr ⟨mode, by rwa [List.append_nil], fun _ before _ => ⟨before, rfl⟩⟩
  | cons c rest ih =>
    cases stepped : mode.step c with
    | none =>
      obtain ⟨rfl, rfl⟩ := step_eq_none stepped
      exact .inl ⟨start, rest, reached, rfl⟩
    | some next =>
      have further := ih (reached.step stepped)
      rw [List.append_assoc, List.singleton_append] at further
      refine further.imp_right ?_
      rintro ⟨last, ends, scanned⟩
      refine ⟨last, ends, fun number before brackets => ?_⟩
      have one : Cursor.step number ⟨before, .regex mode, brackets⟩ c =
          ⟨c :: before, .regex next, brackets⟩ := by
        simp [Cursor.step, Mode.next, Mode.readsCode, stepped]
      obtain ⟨read, ran⟩ := scanned number (c :: before) brackets
      exact ⟨read, by rw [← ran, ← one]; rfl⟩

/-! What the grammar accepts is read as a whole. -/

theorem length_of_some {mode next : RegexMode} {c : Char} (stepped : mode.step c = some next)
    (rest : Text) : mode.length (c :: rest) = next.length rest + 1 := by
  cases mode <;> simp [RegexMode.length, stepped]

theorem length_enclosed {inside : Text} (enclosed : Enclosed ']' inside) (rest : Text) :
    RegexMode.charClass.length (inside ++ rest) =
      inside.length + RegexMode.charClass.length rest := by
  induction enclosed with
  | nil => simp
  | @char c text noEscape inner _ ih =>
    have stepped : RegexMode.charClass.step c = some .charClass := by simp [step, noEscape, inner]
    rw [List.cons_append, length_of_some stepped, ih, List.length_cons]
    omega
  | @escape c text _ ih =>
    change RegexMode.charClass.length (text ++ rest) + 1 + 1 = _
    rw [ih, List.length_cons, List.length_cons]
    omega

theorem length_body {body : Text} (isBody : RegexBody body) (rest : Text) :
    RegexMode.body.length (body ++ rest) = body.length + RegexMode.body.length rest := by
  induction isBody with
  | nil => simp
  | @char c text noEscape noClass noSlash _ ih =>
    have stepped : RegexMode.body.step c = some .body := by simp [step, noEscape, noClass, noSlash]
    rw [List.cons_append, length_of_some stepped, ih, List.length_cons]
    omega
  | @escape c text _ ih =>
    change RegexMode.body.length (text ++ rest) + 1 + 1 = _
    rw [ih, List.length_cons, List.length_cons]
    omega
  | @charClass inside text enclosed _ ih =>
    rw [List.cons_append, List.append_assoc, List.cons_append]
    change RegexMode.charClass.length (inside ++ ']' :: (text ++ rest)) + 1 = _
    rw [length_enclosed enclosed]
    change inside.length + (RegexMode.body.length (text ++ rest) + 1) + 1 = _
    rw [ih, List.length_cons, List.length_append, List.length_cons]
    omega

theorem length_class {body inside : Text} (isBody : RegexBody body) (enclosed : Enclosed ']' inside)
    (rest : Text) : RegexMode.body.length (body ++ '[' :: (inside ++ rest)) =
      body.length + (inside.length + RegexMode.charClass.length rest + 1) := by
  rw [length_body isBody, length_of_some rfl, length_enclosed enclosed]

/-- Only a backslash at the end is counted together with a character that is not there. -/
theorem Reached.length_eq {last : RegexMode} {text : Text} (reached : last.Reached text) :
    RegexMode.body.length text = text.length + last.length [] := by
  cases last with
  | body => simpa using length_body reached []
  | bodyEscape =>
    obtain ⟨body, isBody, rfl⟩ := reached
    rw [length_body isBody, List.length_append]
    rfl
  | charClass =>
    obtain ⟨body, inside, isBody, enclosed, rfl⟩ := reached
    have size := length_class isBody enclosed []
    rw [List.append_nil] at size
    rw [size, List.length_append, List.length_cons]
    rfl
  | charClassEscape =>
    obtain ⟨body, inside, isBody, enclosed, rfl⟩ := reached
    rw [length_class isBody enclosed, List.length_append, List.length_cons, List.length_append]
    rfl

end RegexMode

/-! The end of a literal. -/

/-- Behind the opening slash the text begins with the body and the slash that closes the literal. -/
def ClosesWith (text body rest : Text) : Prop := RegexBody body ∧ text = body ++ '/' :: rest

/-- The text behind the opening slash ends with a backslash that has nothing to escape. -/
def EndsUnpaired (text : Text) : Prop :=
  RegexMode.bodyEscape.Reached text ∨ RegexMode.charClassEscape.Reached text

theorem ClosesWith.length_eq {text body rest : Text} (closes : ClosesWith text body rest) :
    RegexMode.body.length text = body.length + 1 := by
  obtain ⟨isBody, rfl⟩ := closes
  exact RegexMode.length_body isBody ('/' :: rest)

theorem ClosesWith.unique {text body rest other behind : Text} (first : ClosesWith text body rest)
    (second : ClosesWith text other behind) : other = body ∧ behind = rest := by
  have sizes : other.length = body.length := by
    have size := second.length_eq
    rw [first.length_eq] at size
    omega
  have same : other ++ '/' :: behind = body ++ '/' :: rest := second.2.symm.trans first.2
  obtain ⟨bodies, rests⟩ := List.append_inj same sizes
  exact ⟨bodies, (List.cons.inj rests).2⟩

theorem exists_reached {text : Text} (unclosed : ¬ ∃ body rest, ClosesWith text body rest) :
    ∃ last : RegexMode, last.Reached text ∧ ∀ number before brackets, ∃ read,
      Cursor.run number ⟨before, .regex .body, brackets⟩ text = ⟨read, .regex last, brackets⟩ := by
  have start : RegexMode.body.Reached [] := .nil
  exact (start.read text).resolve_left unclosed

theorem RegexMode.Reached.endsUnpaired_iff {last : RegexMode} {text : Text}
    (reached : last.Reached text) : EndsUnpaired text ↔ last.length [] = 1 := by
  constructor
  · intro unpaired
    have size : RegexMode.body.length text = text.length + 1 := by
      rcases unpaired with inBody | inClass
      · exact inBody.length_eq
      · exact inClass.length_eq
    rw [reached.length_eq] at size
    omega
  · intro one
    cases last with
    | bodyEscape => exact .inl reached
    | charClassEscape => exact .inr reached
    | body | charClass => cases one

theorem take_regexEnd {source : Text} {slash : Nat} (found : source[slash]? = some '/') :
    (source.take (regexEnd source slash)).drop slash =
      '/' :: (source.drop (slash + 1)).take (RegexMode.body.length (source.drop (slash + 1))) := by
  obtain ⟨bound, same⟩ := List.getElem?_eq_some_iff.mp found
  have size : regexEnd source slash - slash = RegexMode.body.length (source.drop (slash + 1)) + 1 := by
    rw [regexEnd]
    omega
  rw [List.drop_take, size, List.drop_eq_getElem_cons bound, same, List.take_succ_cons]

theorem tryRegexEnd_ofNat (line : Text) (slash : Nat) :
    tryRegexEnd line slash = .ok (regexEnd line slash) := by
  have start : (0 : Int) ≤ slash + 1 := by omega
  have offset : ((slash : Int) + 1).toNat = slash + 1 := by omega
  simp only [tryRegexEnd, regexEnd, if_pos start, offset]
  rfl

section Scan

variable {text : Text} {cursor : Cursor} (begins : LiteralKind.regex.Begins cursor)
  (noSlash : text.head? ≠ some '/') (noStar : text.head? ≠ some '*') (number : Nat)

include begins noSlash noStar

theorem Cursor.run_closed {body rest : Text} (closes : ClosesWith text body rest) :
    ∃ read, cursor.run number ('/' :: text.take (RegexMode.body.length text)) =
      ⟨read, .code, cursor.brackets⟩ := by
  have part : text.take (RegexMode.body.length text) = body ++ ['/'] := by
    rw [closes.length_eq, closes.2, List.take_length_add_append, List.take_succ_cons, List.take_zero]
  have nonempty : body ≠ [] := by
    rintro rfl
    exact noSlash (by rw [closes.2]; rfl)
  have noComment : body.head? ≠ some '*' := by
    obtain ⟨c, more, rfl⟩ := List.exists_cons_of_ne_nil nonempty
    rwa [closes.2] at noStar
  obtain ⟨read, ran⟩ := (LiteralKind.Written.regex closes.1 nonempty noComment).scanned
    (by decide) number begins
  exact ⟨_, part ▸ ran⟩

theorem Cursor.run_unclosed (unclosed : ¬ ∃ body rest, ClosesWith text body rest) :
    ∃ read last, cursor.run number ('/' :: text.take (RegexMode.body.length text)) =
      ⟨read, last, cursor.brackets⟩ ∧ last.region = .code := by
  -- A literal that is not closed takes the rest of the line, and the next line begins in code.
  obtain ⟨last, reached, scanned⟩ := exists_reached unclosed
  have all : text.take (RegexMode.body.length text) = text :=
    List.take_of_length_le (by rw [reached.length_eq]; omega)
  have opened : cursor.step number '/' = ⟨'/' :: cursor.before, .slash true, cursor.brackets⟩ :=
    begins.operand rfl ▸ begins.opened number
  rw [all]
  change ∃ read last, Cursor.run number (cursor.step number '/') text = _ ∧ _
  rw [opened]
  by_cases empty : text = []
  · subst empty
    exact ⟨_, _, rfl, rfl⟩
  · rw [Cursor.run_behind_slash number empty noSlash noStar]
    obtain ⟨read, ran⟩ := scanned number ('/' :: cursor.before) cursor.brackets
    exact ⟨read, _, ran, rfl⟩

end Scan

/-- Where the literal whose opening slash stands in a line ends. If the text behind the slash has a body
and a slash that closes it, the end is right behind that slash, and there is only one such body. If
not, it is the end of the line, or one further exactly when the line ends with a backslash that has
nothing to escape. A scan that meets the slash where a literal may begin passes over all this without
minding brackets, and is in code behind a literal that is closed. -/
theorem regexEnd_behind_literal {source : Text} {slash : Nat} (found : source[slash]? = some '/') :
    let text := source.drop (slash + 1)
    let stop := regexEnd source slash
    (∀ body rest, ClosesWith text body rest →
        stop = slash + body.length + 2 ∧
          ∀ other behind, ClosesWith text other behind → other = body ∧ behind = rest) ∧
      ((¬ ∃ body rest, ClosesWith text body rest) →
        (stop = source.length ∨ stop = source.length + 1) ∧
          (stop = source.length + 1 ↔ EndsUnpaired text)) ∧
      slash < stop ∧ tryRegexEnd source slash = .ok stop ∧
      ∀ number cursor, LiteralKind.regex.Begins cursor → text.head? ≠ some '/' →
        text.head? ≠ some '*' →
        ∃ read last, cursor.run number ((source.take stop).drop slash) = ⟨read, last, cursor.brackets⟩ ∧
          last.region = .code ∧ ((∃ body rest, ClosesWith text body rest) → last = .code) := by
  intro text stop
  obtain ⟨bound, _⟩ := List.getElem?_eq_some_iff.mp found
  have size : text.length = source.length - (slash + 1) := List.length_drop
  have stops : stop = slash + 1 + RegexMode.body.length text := rfl
  refine ⟨?_, ?_, by omega, tryRegexEnd_ofNat source slash, ?_⟩
  · intro body rest closes
    refine ⟨?_, fun other behind => closes.unique⟩
    rw [stops, closes.length_eq]
    omega
  · intro unclosed
    obtain ⟨last, reached, _⟩ := exists_reached unclosed
    have ends : stop = source.length + last.length [] := by
      rw [stops, reached.length_eq]
      omega
    rw [reached.endsUnpaired_iff, ends]
    cases last <;> simp [RegexMode.length]
  · intro number cursor begins noSlash noStar
    rw [take_regexEnd found]
    by_cases closed : ∃ body rest, ClosesWith text body rest
    · obtain ⟨body, rest, closes⟩ := closed
      obtain ⟨read, ran⟩ := Cursor.run_closed begins noSlash noStar number closes
      exact ⟨read, .code, ran, rfl, fun _ => rfl⟩
    · obtain ⟨read, last, ran, code⟩ := Cursor.run_unclosed begins noSlash noStar number closed
      exact ⟨read, last, ran, code, fun isClosed => absurd isClosed closed⟩

/-- In one line the first slash of the body is in a class and the second escaped, so the third closes
the literal, and none of its brackets counts. The other line ends in an open class with a backslash. -/
theorem classedSlash_regexEnd :
    let closed : Text := ['=', '/', '[', '/', '\\', ']', ']', '\\', '/', '/', 'g']
    let cut : Text := ['/', 'a', '[', '/', '\\']
    (closed[1]? = some '/' ∧ regexEnd closed 1 = 10 ∧ tryRegexEnd closed 1 = .ok 10 ∧
        ∃ read, Cursor.run 3 ⟨['='], .code, [2]⟩ ((closed.take 10).drop 1) = ⟨read, .code, [2]⟩) ∧
      cut[0]? = some '/' ∧ EndsUnpaired (cut.drop 1) ∧ regexEnd cut 0 = cut.length + 1 := by
  intro closed cut
  have body : RegexBody ['[', '/', '\\', ']', ']', '\\', '/'] :=
    @RegexBody.charClass ['/', '\\', ']'] ['\\', '/']
      (.char (by decide) (by decide) (.escape ']' .nil)) (.escape '/' .nil)
  have closes : ClosesWith (closed.drop 2) ['[', '/', '\\', ']', ']', '\\', '/'] ['g'] := ⟨body, rfl⟩
  obtain ⟨ends, -, -, tried, scans⟩ := @regexEnd_behind_literal closed 1 rfl
  have stop : regexEnd closed 1 = 10 := (ends _ _ closes).1
  obtain ⟨read, last, ran, -, inCode⟩ := scans 3 ⟨['='], .code, [2]⟩ ⟨rfl, fun _ => by decide⟩
    (by decide) (by decide)
  rw [stop, inCode ⟨_, _, closes⟩] at ran
  rw [stop] at tried
  have unpaired : EndsUnpaired ['a', '[', '/', '\\'] :=
    .inr ⟨['a'], ['/'], .char (by decide) (by decide) (by decide) .nil,
      .char (by decide) (by decide) .nil, rfl⟩
  have unclosed : ¬ ∃ body rest, ClosesWith ['a', '[', '/', '\\'] body rest := by
    rintro ⟨body, rest, closes⟩
    have size : 5 = body.length + 1 := closes.length_eq
    have whole := congrArg List.length closes.2
    simp only [List.length_cons, List.length_nil, List.length_append] at whole
    omega
  obtain ⟨-, opened, -⟩ := @regexEnd_behind_literal cut 0 rfl
  exact ⟨⟨rfl, stop, tried, read, ran⟩, rfl, unpaired, (opened unclosed).2.mpr unpaired⟩

end OptionsApi.Layout
