import OptionsApi.Proofs.Layout.Literals

/-! String literals and their values. The literal of a value is read back as that value and ends where it
was written to end, whatever follows it; the layout finds its end at the same place. -/

set_option autoImplicit false

namespace OptionsApi

def Text.replace (target : Char) (replacement text : Text) : Text :=
  text.flatMap fun c => if c = target then replacement else [c]

namespace Quote

def escaped? (quote : Quote) (c : Char) : Option Char :=
  if c = 'n' then some '\n'
  else if c = 'r' then some '\r'
  else if c = '\\' ∨ c = quote.char then some c
  else none

/-- Reads a literal from behind its opening quote up to its closing one: its value and what follows. -/
def readBody? (quote : Quote) : Text → Option (Text × Text)
  | [] => none
  | c :: rest =>
    if c = quote.char then some ([], rest)
    else if c = '\\' then
      match rest with
      | [] => none
      | d :: rest =>
        (quote.escaped? d).bind fun e => (quote.readBody? rest).map fun read => (e :: read.1, read.2)
    else (quote.readBody? rest).map fun read => (c :: read.1, read.2)

def read? (quote : Quote) : Text → Option (Text × Text)
  | [] => none
  | c :: rest => if c = quote.char then quote.readBody? rest else none

variable (quote : Quote)

theorem char_ne_backslash : quote.char ≠ '\\' := by cases quote <;> decide

theorem readBody?_closing (rest : Text) : quote.readBody? (quote.char :: rest) = some ([], rest) := by
  rw [readBody?.eq_def]
  exact if_pos rfl

theorem readBody?_escaped {c d : Char} (known : quote.escaped? d = some c) (rest : Text) :
    quote.readBody? ('\\' :: d :: rest) =
      (quote.readBody? rest).map fun read => (c :: read.1, read.2) := by
  simp [readBody?, known, (char_ne_backslash quote).symm]

theorem readBody?_escape (c : Char) (rest : Text) :
    quote.readBody? (quote.escape c ++ rest) =
      (quote.readBody? rest).map fun read => (c :: read.1, read.2) := by
  rcases Layout.escape_cases quote c with
    ⟨special, same⟩ | ⟨rfl, same⟩ | ⟨rfl, same⟩ | ⟨⟨noBackslash, noQuote, _⟩, same⟩
  · have known : quote.escaped? c = some c := by
      rcases special with rfl | rfl
      · rfl
      · cases quote <;> rfl
    rw [same]
    exact readBody?_escaped quote known rest
  · rw [same]
    exact readBody?_escaped quote rfl rest
  · rw [same]
    exact readBody?_escaped quote rfl rest
  · rw [same, List.singleton_append, readBody?.eq_def]
    exact (if_neg noQuote).trans (if_neg noBackslash)

theorem readBody?_escapes (value behind : Text) :
    quote.readBody? (value.flatMap quote.escape ++ quote.char :: behind) = some (value, behind) := by
  induction value with
  | nil => exact readBody?_closing quote behind
  | cons c rest ih =>
    rw [List.flatMap_cons, List.append_assoc, readBody?_escape, ih]
    rfl

theorem read?_literal (value behind : Text) :
    quote.read? (quote.literal value ++ behind) = some (value, behind) := by
  have body := readBody?_escapes quote value behind
  simpa [literal, read?] using body

/-- A literal is written in one pass. Four passes come to the same, one for each kind of character that
is escaped, if backslashes are doubled before the other passes put new ones in. -/
theorem escapes_eq_replacements (value : Text) :
    value.flatMap quote.escape =
      Text.replace '\r' ['\\', 'r'] (Text.replace '\n' ['\\', 'n']
        (Text.replace quote.char ['\\', quote.char] (Text.replace '\\' ['\\', '\\'] value))) := by
  simp only [Text.replace, List.flatMap_assoc]
  congr 1
  funext c
  have noBackslash := char_ne_backslash quote
  have noLineFeed : quote.char ≠ '\n' := by cases quote <;> decide
  have noReturn : quote.char ≠ '\r' := by cases quote <;> decide
  rcases Layout.escape_cases quote c with
    ⟨rfl | rfl, same⟩ | ⟨rfl, same⟩ | ⟨rfl, same⟩ | ⟨⟨other, inner, ordinary, plain⟩, same⟩
  · simp [same, noBackslash.symm]
  · simp [same, noBackslash, noLineFeed, noReturn]
  · simp [same, noLineFeed.symm]
  · simp [same, noReturn.symm]
  · simp [same, other, inner, ordinary, plain]

theorem run_literal (value : Text) (line : Nat) {cursor : Layout.Cursor}
    (code : cursor.mode.readsCode quote.char = true) :
    ∃ read, cursor.run line (quote.literal value) = ⟨read, .code, cursor.brackets⟩ := by
  -- the opening quote is read alike behind a slash that divides
  have same : cursor.run line (quote.literal value) =
      Layout.Cursor.run line ⟨cursor.before, .code, cursor.brackets⟩ (quote.literal value) := by
    change Layout.Cursor.run line (cursor.step line quote.char) _ = _
    rw [Layout.Cursor.step_of_readsCode line code]
    rfl
  rw [same]
  exact (Layout.leaves_literal quote value).scanned line cursor.before cursor.brackets

end Quote

open Layout in
/-- A literal escapes its value as four replacements would, one after the other, and has no line end in
it. It is read back as its value, up to its last character and no further. A scan that comes to it in
code is in code right behind it, with the same brackets open. -/
theorem quoting_invertible (quote : Quote) (value : Text) :
    quote.literal value =
        quote.char :: Text.replace '\r' ['\\', 'r'] (Text.replace '\n' ['\\', 'n']
          (Text.replace quote.char ['\\', quote.char] (Text.replace '\\' ['\\', '\\'] value))) ++
            [quote.char] ∧
      ('\n' ∉ quote.literal value ∧ '\r' ∉ quote.literal value) ∧
      (∀ behind, quote.read? (quote.literal value ++ behind) = some (value, behind)) ∧
      ∀ (line : Nat) (region : Region) (brackets : List Nat) (before behind : Text),
        let here := scanLine line region brackets before
        let there := scanLine line region brackets (before ++ quote.literal value)
        here.mode.readsCode quote.char = true →
          there.mode = .code ∧ there.brackets = here.brackets ∧
            scanLine line region brackets (before ++ quote.literal value ++ behind) =
              there.run line behind := by
  refine ⟨?_, ⟨?_, ?_⟩, quote.read?_literal value, ?_⟩
  · rw [← quote.escapes_eq_replacements, Quote.literal]
  · exact lineEnd_not_mem_literal quote value (.inl rfl)
  · exact lineEnd_not_mem_literal quote value (.inr rfl)
  · intro line region brackets before behind here there code
    obtain ⟨read, scanned⟩ := quote.run_literal value line code
    have reached : there = ⟨read, .code, here.brackets⟩ :=
      (Cursor.run_append line _ before _).trans scanned
    have further : scanLine line region brackets (before ++ quote.literal value ++ behind) =
        there.run line behind :=
      Cursor.run_append line _ (before ++ quote.literal value) behind
    rw [further, reached]
    exact ⟨rfl, rfl, rfl⟩

def knottedValue : Text := ['\\', 'n', '\'', '\n', '"', '\r', ')', '\\']

open Layout in
theorem knottedValue_scanned :
    let literal := Quote.single.literal knottedValue
    let before : Text := ['f', '(', 'a', ' ', '/']
    (scanLine 1 .code [] before).mode.readsCode '\'' = true ∧
      literal = ['\'', '\\', '\\', 'n', '\\', '\'', '\\', 'n', '"', '\\', 'r', ')', '\\', '\\', '\''] ∧
      Quote.single.read? (literal ++ [')']) = some (knottedValue, [')']) ∧
      (scanLine 1 .code [] (before ++ literal)).mode = .code ∧
      (scanLine 1 .code [] (before ++ literal)).brackets = [1] := by
  obtain ⟨_, _, read, scanned⟩ := quoting_invertible .single knottedValue
  obtain ⟨mode, brackets, _⟩ := scanned 1 .code [] ['f', '(', 'a', ' ', '/'] [')'] rfl
  exact ⟨rfl, rfl, read [')'], mode, brackets⟩

end OptionsApi
