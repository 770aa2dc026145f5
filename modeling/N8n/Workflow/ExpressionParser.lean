import N8n.Library.TextSearch

/-!
# Splitting an expression into text and code

`splitExpression` searches for opening and closing brackets in turn, and
`joinExpression` puts the chunks together again.  Strings are lists of
characters.  What the loop still holds in its buffer when the string ends is
lost, and so are opening brackets with nothing behind them.
-/

namespace N8n

open TextSearch

inductive ExpressionChunk where
  | text (text : List Char)
  | code (text : List Char) (hasClosingBrackets : Bool)

inductive SearchingFor where
  | open
  | close
deriving DecidableEq

namespace SearchingFor

def bracket : SearchingFor → Char
  | .open => '{'
  | .close => '}'

def brackets (searchingFor : SearchingFor) : List Char :=
  [searchingFor.bracket, searchingFor.bracket]

end SearchingFor

/-- A match of `OPEN_BRACKET` or `CLOSE_BRACKET`. -/
structure BracketMatch where
  before : List Char
  escape : Bool
  after : List Char

def BracketMatch.escapeText (res : BracketMatch) : List Char :=
  if res.escape then ['\\'] else []

/-- `activeRegex.exec(expr)`: the leftmost brackets, with the backslash before
them when there is one. -/
def execBracket (searchingFor : SearchingFor) : List Char → Option BracketMatch
  | [] => none
  | char :: expr =>
    if char = '\\' ∧ searchingFor.brackets <+: expr then
      some ⟨[], true, expr.drop 2⟩
    else if searchingFor.brackets <+: char :: expr then
      some ⟨[], false, expr.drop 1⟩
    else
      (execBracket searchingFor expr).map fun res =>
        { res with before := char :: res.before }

variable {res : BracketMatch} {expr : List Char} {searchingFor : SearchingFor}

theorem execBracket_eq_some (found : execBracket searchingFor expr = some res) :
    expr = res.before ++ (res.escapeText ++ (searchingFor.brackets ++ res.after)) ∧
      Unmatched searchingFor.brackets res.before
        (res.escapeText ++ (searchingFor.brackets ++ res.after)) := by
  induction expr generalizing res with
  | nil => cases found
  | cons char expr ih =>
    rw [execBracket] at found
    split at found
    next escaped =>
      obtain ⟨rfl, after, rfl⟩ := escaped
      cases found
      exact ⟨rfl, trivial⟩
    · split at found
      next matched =>
        obtain ⟨after, matched⟩ := matched
        cases found
        have rest : expr = searchingFor.bracket :: after := (List.cons.inj matched).2.symm
        have first : char = searchingFor.bracket := (List.cons.inj matched).1.symm
        rw [first, rest]
        exact ⟨rfl, trivial⟩
      next unmatched =>
        obtain ⟨later, laterFound, rfl⟩ := Option.map_eq_some_iff.mp found
        obtain ⟨shape, free⟩ := ih laterFound
        constructor
        · exact congrArg (char :: ·) shape
        · constructor
          · change ¬ _ <+: char :: (later.before ++ (later.escapeText ++
              (searchingFor.brackets ++ later.after)))
            rw [← shape]
            exact unmatched
          · exact free

theorem execBracket_eq_none (missing : execBracket searchingFor expr = none) :
    Unmatched searchingFor.brackets expr [] := by
  induction expr with
  | nil => trivial
  | cons char expr ih =>
    rw [execBracket] at missing
    split at missing
    · cases missing
    · split at missing
      · cases missing
      next unmatched =>
        constructor
        · rw [List.append_nil]
          exact unmatched
        · exact ih (Option.map_eq_none_iff.mp missing)

theorem length_after_lt (found : execBracket searchingFor expr = some res) :
    res.after.length < expr.length := by
  rw [(execBracket_eq_some found).1]
  simp only [SearchingFor.brackets, List.length_append, List.length_cons]
  omega

/-- Only the first escaped closing brackets are unescaped. -/
def escapeCode (text : List Char) : List Char :=
  TextSearch.replaceFirst ['\\', '}', '}'] ['}', '}'] text

/-- The chunk that ends here, and what is searched for behind it. -/
def SearchingFor.chunk (searchingFor : SearchingFor) (buffer : List Char)
    (hasClosingBrackets : Bool) : ExpressionChunk :=
  match searchingFor with
  | .open => .text buffer
  | .close => .code (escapeCode buffer) hasClosingBrackets

def SearchingFor.next : SearchingFor → SearchingFor
  | .open => .close
  | .close => .open

/-- The loop of `splitExpression`, at `expr = expression.slice(index)`. -/
def splitLoop (searchingFor : SearchingFor) (buffer expr : List Char) : List ExpressionChunk :=
  if expr = [] then []
  else
    match _ : execBracket searchingFor expr with
    | none => [searchingFor.chunk (buffer ++ expr) false]
    | some res =>
      if res.escape then
        splitLoop searchingFor (buffer ++ res.before ++ '\\' :: searchingFor.brackets) res.after
      else
        searchingFor.chunk (buffer ++ res.before) true :: splitLoop searchingFor.next [] res.after
termination_by expr.length
decreasing_by all_goals exact length_after_lt ‹_›

def splitExpression (expression : List Char) : List ExpressionChunk :=
  splitLoop .open [] expression

def escapeTmplExpression (part : List Char) : List Char :=
  TextSearch.replaceFirst ['}', '}'] ['\\', '}', '}'] part

def joinChunk : ExpressionChunk → List Char
  | .code text hasClosingBrackets =>
    ['{', '{'] ++ escapeTmplExpression text ++ (if hasClosingBrackets then ['}', '}'] else [])
  | .text text => text

def joinExpression (parts : List ExpressionChunk) : List Char :=
  (parts.map joinChunk).flatten

/-- Splitting loses no character from here on.  `pending` says that escaped
brackets were found since the last chunk ended.  The string must not end behind
opening brackets nor behind escaped ones, and no `}` may stand directly before
the first escaped closing brackets of a code chunk. -/
def SplitsCleanly (searchingFor : SearchingFor) (pending : Bool) (expr : List Char) : Prop :=
  if expr = [] then searchingFor = .open ∧ pending = false
  else
    match _ : execBracket searchingFor expr with
    | none => True
    | some res =>
      if res.escape then
        (searchingFor = .close → pending = false → res.before.getLast? ≠ some '}') ∧
        SplitsCleanly searchingFor true res.after
      else SplitsCleanly searchingFor.next false res.after
termination_by expr.length
decreasing_by all_goals exact length_after_lt ‹_›

section Equations

variable {searchingFor : SearchingFor} {pending : Bool}
  {buffer expr : List Char} {res : BracketMatch}

@[simp] theorem splitLoop_nil : splitLoop searchingFor buffer [] = [] := by
  rw [splitLoop, if_pos rfl]

theorem ne_nil_of_execBracket (found : execBracket searchingFor expr = some res) : expr ≠ [] := by
  intro empty
  rw [empty] at found
  cases found

theorem splitLoop_none (nonempty : expr ≠ []) (missing : execBracket searchingFor expr = none) :
    splitLoop searchingFor buffer expr = [searchingFor.chunk (buffer ++ expr) false] := by
  rw [splitLoop, if_neg nonempty]
  split
  · rfl
  · simp_all

theorem splitLoop_escape (found : execBracket searchingFor expr = some res)
    (escape : res.escape = true) :
    splitLoop searchingFor buffer expr = splitLoop searchingFor
        (buffer ++ res.before ++ '\\' :: searchingFor.brackets)
        res.after := by
  rw [splitLoop, if_neg (ne_nil_of_execBracket found)]
  split
  · simp_all
  · simp_all

theorem splitLoop_brackets (found : execBracket searchingFor expr = some res)
    (escape : res.escape = false) :
    splitLoop searchingFor buffer expr = searchingFor.chunk (buffer ++ res.before) true ::
        splitLoop searchingFor.next [] res.after := by
  rw [splitLoop, if_neg (ne_nil_of_execBracket found)]
  split
  · simp_all
  · simp_all

theorem splitsCleanly_nil : SplitsCleanly searchingFor pending [] ↔
      searchingFor = .open ∧ pending = false := by
  rw [SplitsCleanly, if_pos rfl]

theorem splitsCleanly_none (nonempty : expr ≠ []) (missing : execBracket searchingFor expr = none) :
    SplitsCleanly searchingFor pending expr := by
  rw [SplitsCleanly, if_neg nonempty]
  split
  · trivial
  · simp_all

theorem splitsCleanly_escape (found : execBracket searchingFor expr = some res)
    (escape : res.escape = true) :
    SplitsCleanly searchingFor pending expr ↔
      (searchingFor = .close → pending = false → res.before.getLast? ≠ some '}') ∧
      SplitsCleanly searchingFor true res.after := by
  rw [SplitsCleanly, if_neg (ne_nil_of_execBracket found)]
  split
  · simp_all
  · simp_all

theorem splitsCleanly_brackets (found : execBracket searchingFor expr = some res)
    (escape : res.escape = false) :
    SplitsCleanly searchingFor pending expr ↔ SplitsCleanly searchingFor.next false res.after := by
  rw [SplitsCleanly, if_neg (ne_nil_of_execBracket found)]
  split
  · simp_all
  · simp_all

@[simp] theorem joinExpression_nil : joinExpression [] = [] := rfl

@[simp] theorem joinExpression_cons (chunk : ExpressionChunk) (parts : List ExpressionChunk) :
    joinExpression (chunk :: parts) = joinChunk chunk ++ joinExpression parts := rfl

end Equations

/-- The text of a code chunk after the joiner has escaped it again. -/
def recodeText (raw : List Char) : List Char :=
  escapeTmplExpression (escapeCode raw)

section Recode

variable {before behind raw : List Char}

theorem recodeText_of_unmatched (unmatched : Unmatched ['}', '}'] raw []) :
    recodeText raw = raw := by
  have unescaped : escapeCode raw = raw :=
    replaceFirst_of_unmatched (unmatched.cons_pattern (by simp))
  rw [recodeText, unescaped]
  exact replaceFirst_of_unmatched unmatched

theorem escapeCode_escaped (unmatched : Unmatched ['}', '}'] before []) (behind : List Char) :
    escapeCode (before ++ '\\' :: '}' :: '}' :: behind) = before ++ '}' :: '}' :: behind := by
  have free : Unmatched ['}', '}'] before ('\\' :: '}' :: '}' :: behind) :=
    unmatched_pair_iff.mpr ⟨unmatched, by simp⟩
  have next : ¬ ['}', '}'] <+: '\\' :: '}' :: '}' :: behind := by
    simp [List.cons_prefix_cons]
  rw [escapeCode, replaceFirst_append (free.cons_pattern next)]
  exact congrArg (before ++ ·) (replaceFirst_match '\\')

theorem recodeText_escaped (unmatched : Unmatched ['}', '}'] before [])
    (apart : before.getLast? ≠ some '}') :
    recodeText (before ++ '\\' :: '}' :: '}' :: behind) =
      before ++ '\\' :: '}' :: '}' :: behind := by
  have free : Unmatched ['}', '}'] before ('}' :: '}' :: behind) :=
    unmatched_pair_iff.mpr ⟨unmatched, fun touching => apart touching.1⟩
  rw [recodeText, escapeCode_escaped unmatched behind, escapeTmplExpression,
    replaceFirst_append free]
  exact congrArg (before ++ ·) (replaceFirst_match '}')

theorem recodeText_touching (unmatched : Unmatched ['}', '}'] (before ++ ['}']) []) :
    recodeText (before ++ '}' :: '\\' :: '}' :: '}' :: behind) =
      before ++ '\\' :: '}' :: '}' :: '}' :: behind := by
  have unescaped : escapeCode (before ++ '}' :: '\\' :: '}' :: '}' :: behind) =
        before ++ '}' :: '}' :: '}' :: behind := by
    simpa using escapeCode_escaped unmatched behind
  have free : Unmatched ['}', '}'] before ('}' :: '}' :: '}' :: behind) := by
    have alone := (unmatched_append.mp unmatched).1
    rw [unmatched_pair_iff] at alone ⊢
    exact ⟨alone.1, by simpa using alone.2⟩
  rw [recodeText, unescaped, escapeTmplExpression, replaceFirst_append free]
  exact congrArg (before ++ ·) (replaceFirst_match '}')

end Recode

/-- The brackets that the loop has passed since the last chunk. -/
def SearchingFor.opened : SearchingFor → List Char
  | .open => []
  | .close => ['{', '{']

/-- The chunks from here on give back the part of the string that is not in a
chunk yet. -/
def GivesBack (searchingFor : SearchingFor) (buffer expr : List Char) : Prop :=
  joinExpression (splitLoop searchingFor buffer expr) = searchingFor.opened ++ (buffer ++ expr)

/-- The first escape of this code part stands behind `before`. -/
def EscapedBehind (before buffer : List Char) : Prop :=
  Unmatched ['}', '}'] before [] ∧ ∃ behind, buffer = before ++ '\\' :: '}' :: '}' :: behind

variable {buffer : List Char}

theorem EscapedBehind.append {before : List Char}
    (escaped : EscapedBehind before buffer) (later : List Char) :
    EscapedBehind before (buffer ++ later) := by
  obtain ⟨unmatched, behind, rfl⟩ := escaped
  exact ⟨unmatched, behind ++ later, by simp⟩

theorem EscapedBehind.recodeText_eq {before buffer : List Char}
    (escaped : EscapedBehind before buffer)
    (apart : before.getLast? ≠ some '}') : recodeText buffer = buffer := by
  obtain ⟨unmatched, behind, rfl⟩ := escaped
  exact recodeText_escaped unmatched apart

theorem EscapedBehind.recodeText_ne {before buffer : List Char}
    (escaped : EscapedBehind before buffer)
    (touching : before.getLast? = some '}') :
    (recodeText buffer).length = buffer.length ∧ recodeText buffer ≠ buffer := by
  obtain ⟨unmatched, behind, rfl⟩ := escaped
  obtain ⟨rest, rfl⟩ := List.getLast?_eq_some_iff.mp touching
  have shape : rest ++ ['}'] ++ '\\' :: '}' :: '}' :: behind =
      rest ++ '}' :: '\\' :: '}' :: '}' :: behind := by simp
  rw [shape, recodeText_touching unmatched]
  simp

/-- A code chunk whose text comes back changed spoils the whole string. -/
theorem not_givesBack_of_touching {before buffer expr : List Char}
    (escaped : EscapedBehind before buffer)
    (touching : before.getLast? = some '}') :
    ¬ GivesBack .close buffer expr := by
  induction size : expr.length using Nat.strongRecOn generalizing buffer expr with
  | _ size ih =>
    intro givesBack
    rw [GivesBack] at givesBack
    by_cases nonempty : expr = []
    · rw [nonempty, splitLoop_nil] at givesBack
      cases givesBack
    · cases found : execBracket .close expr with
      | none =>
        rw [splitLoop_none nonempty found] at givesBack
        have changed := (escaped.append expr).recodeText_ne touching
        apply changed.2
        simpa [SearchingFor.chunk, joinChunk, SearchingFor.opened, recodeText] using givesBack
      | some res =>
        have shape := (execBracket_eq_some found).1
        have shorter := length_after_lt found
        cases escape : res.escape with
        | true =>
          rw [splitLoop_escape found escape] at givesBack
          apply ih res.after.length (by omega) ((escaped.append res.before).append _) rfl
          rw [GivesBack, givesBack, shape]
          simp [BracketMatch.escapeText, escape]
        | false =>
          rw [splitLoop_brackets found escape] at givesBack
          have changed := (escaped.append res.before).recodeText_ne touching
          have texts : recodeText (buffer ++ res.before) ++ ('}' :: '}' ::
                joinExpression (splitLoop .open [] res.after)) =
              (buffer ++ res.before) ++ ('}' :: '}' :: res.after) := by
            have same := givesBack
            rw [shape] at same
            simpa [SearchingFor.chunk, joinChunk, SearchingFor.opened,
              SearchingFor.next, recodeText, BracketMatch.escapeText,
              escape, SearchingFor.brackets, SearchingFor.bracket]
              using same
          exact changed.2 (List.append_inj texts changed.1).1

/-- What the buffer holds between the turns of the loop. -/
structure BufferKept (searchingFor : SearchingFor) (pending : Bool)
    (buffer : List Char) : Prop where
  empty : pending = false → buffer = []
  nonempty : pending = true → buffer ≠ []
  escaped : searchingFor = .close → pending = true →
    ∃ before, EscapedBehind before buffer ∧ before.getLast? ≠ some '}'

theorem BufferKept.start (searchingFor : SearchingFor) : BufferKept searchingFor false [] := by
  constructor <;> simp

theorem BufferKept.joinChunk_eq {pending : Bool} {text : List Char}
    (kept : BufferKept searchingFor pending buffer)
    (unmatched : Unmatched searchingFor.brackets text [])
    (hasClosingBrackets : Bool) :
    joinChunk (searchingFor.chunk (buffer ++ text) hasClosingBrackets) =
      searchingFor.opened ++ (buffer ++ text) ++
        (if searchingFor = .close ∧ hasClosingBrackets = true
          then ['}', '}'] else []) := by
  cases searchingFor with
  | «open» => simp [SearchingFor.chunk, joinChunk, SearchingFor.opened]
  | close =>
    have recoded : recodeText (buffer ++ text) = buffer ++ text := by
      cases pending with
      | false =>
        rw [kept.empty rfl]
        exact recodeText_of_unmatched unmatched
      | true =>
        obtain ⟨before, escaped, apart⟩ := kept.escaped rfl rfl
        exact (escaped.append text).recodeText_eq apart
    rw [recodeText] at recoded
    simp [SearchingFor.chunk, joinChunk, SearchingFor.opened, recoded]

/-- Escaped brackets keep the invariant unless they are the first ones of a
code chunk and directly follow a bracket. -/
theorem BufferKept.escape {searchingFor : SearchingFor} {pending : Bool}
    {buffer text : List Char} (kept : BufferKept searchingFor pending buffer)
    (unmatched : Unmatched searchingFor.brackets text [])
    (apart : searchingFor = .close → pending = false → text.getLast? ≠ some '}') :
    BufferKept searchingFor true (buffer ++ text ++ '\\' :: searchingFor.brackets) := by
  constructor
  · simp
  · simp
  · rintro rfl -
    cases pending with
    | false =>
      rw [kept.empty rfl]
      exact ⟨text, ⟨unmatched, [], rfl⟩, apart rfl rfl⟩
    | true =>
      obtain ⟨before, escaped, free⟩ := kept.escaped rfl rfl
      exact ⟨before, (escaped.append text).append _, free⟩

theorem givesBack_brackets {pending : Bool} (kept : BufferKept searchingFor pending buffer)
    (found : execBracket searchingFor expr = some res)
    (escape : res.escape = false) :
    GivesBack searchingFor buffer expr ↔ GivesBack searchingFor.next [] res.after := by
  have shape := (execBracket_eq_some found).1
  have unmatched : Unmatched searchingFor.brackets res.before [] :=
    (unmatched_pair_iff.mp (execBracket_eq_some found).2).1
  rw [GivesBack, GivesBack, splitLoop_brackets found escape,
    joinExpression_cons, kept.joinChunk_eq unmatched true, shape]
  cases searchingFor <;> simp [SearchingFor.opened, SearchingFor.next, BracketMatch.escapeText,
      escape, SearchingFor.brackets, SearchingFor.bracket]

/-- The loop gives back the rest of the string exactly when it loses no
character from here on. -/
theorem givesBack_iff {pending : Bool} (kept : BufferKept searchingFor pending buffer) :
    GivesBack searchingFor buffer expr ↔ SplitsCleanly searchingFor pending expr := by
  induction size : expr.length using Nat.strongRecOn
    generalizing searchingFor pending buffer expr with
  | _ size ih =>
    by_cases nonempty : expr = []
    · rw [nonempty, splitsCleanly_nil, GivesBack, splitLoop_nil]
      cases pending with
      | false =>
        rw [kept.empty rfl]
        cases searchingFor <;> simp [SearchingFor.opened]
      | true =>
        simpa using fun _ => kept.nonempty rfl
    · cases found : execBracket searchingFor expr with
      | none =>
        have clean : SplitsCleanly searchingFor pending expr := splitsCleanly_none nonempty found
        rw [GivesBack, splitLoop_none nonempty found]
        simpa [clean] using kept.joinChunk_eq (execBracket_eq_none found) false
      | some res =>
        have shape := (execBracket_eq_some found).1
        have shorter := length_after_lt found
        have unmatched : Unmatched searchingFor.brackets res.before [] :=
          (unmatched_pair_iff.mp (execBracket_eq_some found).2).1
        cases escape : res.escape with
        | true =>
          rw [splitsCleanly_escape found escape]
          have rest : GivesBack searchingFor buffer expr ↔ GivesBack searchingFor
                (buffer ++ res.before ++ '\\' :: searchingFor.brackets)
                res.after := by
            rw [GivesBack, GivesBack, splitLoop_escape found escape]
            rw [shape]
            simp [BracketMatch.escapeText, escape]
          rw [rest]
          by_cases touching : searchingFor = .close ∧ pending = false ∧
              res.before.getLast? = some '}'
          · obtain ⟨rfl, rfl, touches⟩ := touching
            rw [kept.empty rfl]
            have escaped : EscapedBehind res.before
                ([] ++ res.before ++ '\\' :: SearchingFor.close.brackets) :=
              ⟨unmatched, [], rfl⟩
            constructor
            · intro givesBack
              exact absurd givesBack (not_givesBack_of_touching escaped touches)
            · intro clean
              exact absurd touches (clean.1 rfl rfl)
          · have apart : searchingFor = .close → pending = false → res.before.getLast? ≠ some '}' :=
              fun close none touches => touching ⟨close, none, touches⟩
            rw [ih res.after.length (by omega) (kept.escape unmatched apart) rfl]
            exact ⟨fun clean => ⟨apart, clean⟩, fun clean => clean.2⟩
        | false =>
          rw [splitsCleanly_brackets found escape, givesBack_brackets kept found escape]
          exact ih res.after.length (by omega) (.start _) rfl

/-- Joining what was split gives the string back exactly when no buffer and no
brackets are pending at its end and no code part has a `}` directly before its
first escaped brackets. -/
theorem joinExpression_splitExpression_iff (expression : List Char) :
    joinExpression (splitExpression expression) = expression ↔
      SplitsCleanly .open false expression :=
  givesBack_iff (.start .open)

/-- `{{ '}\}}' }}` comes back with the backslash in another place, `a{{` without
its brackets, and `\{{` not at all. -/
theorem joinExpression_splitExpression_ne : joinExpression (splitExpression
        "\x7b\x7b '\x7d\\\x7d\x7d' \x7d\x7d".toList) ≠ "\x7b\x7b '\x7d\\\x7d\x7d' \x7d\x7d".toList ∧
      joinExpression (splitExpression "a\x7b\x7b".toList) ≠ "a\x7b\x7b".toList ∧
      joinExpression (splitExpression "\\\x7b\x7b".toList) ≠ "\\\x7b\x7b".toList := by
  decide +kernel

end N8n
