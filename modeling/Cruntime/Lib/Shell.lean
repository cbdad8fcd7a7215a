/-
How a POSIX shell cuts a line into the words of a simple command.

The lexer follows the token recognition rules: blanks and operators delimit, the
three kinds of quoting protect, a digit string before a redirection is its number and
a `#` where a token would start opens a comment.  A token keeps its text as written,
quotes included.  Whatever would be expanded, a `$` or a back quote outside single
quotes, a pattern character or a leading tilde outside all quotes, makes the lexer
give up, and so does a line continuation: a line that lexes is one whose words are
what stands there.

`IsWord` is what a piece of text needs in order to be one word wherever it is put
between blanks.  It is not only enough: every word of a line that lexes has it.
-/
import Cruntime.Lib.CText

namespace Cruntime

namespace Shell

/-! ### The lexer -/

inductive Token where
  | word (text : CStr)
  | ioNumber (text : CStr)
  | op (text : CStr)
deriving DecidableEq

/-- Where in the quoting of a word the lexer stands. -/
inductive Quoting where
  | plain
  | escape
  | single
  | double
  | doubleEscape
deriving DecidableEq

inductive LexState where
  | gap
  | comment
  | word (q : Quoting) (text : CStr)
  | op (text : CStr)
deriving DecidableEq

def isBlank (c : Char) : Bool := c = ' ' || c = '\t'

/-- The operators of the grammar, the newline apart. -/
def operators : List CStr :=
  ["&", "&&", "|", "||", ";", ";;", "<", "<<", "<<-", "<&", "<>", ">", ">>", ">&", ">|", "(",
    ")"].map String.toList

def isOperator (s : CStr) : Bool := s ∈ operators

/-- The characters that end an unquoted word. -/
def delimits (c : Char) : Bool := isBlank c || c = '\n' || isOperator [c]

/-- The characters that are expanded outside all quotes; the first two are expanded in
double quotes as well. -/
def expands (c : Char) : Bool := c = '$' || c = '\x60' || c = '*' || c = '?' || c = '['

/-- The quoting after one more character of a word. -/
def quote (q : Quoting) (c : Char) : Option Quoting :=
  match q with
  | .plain =>
      if c = '\x27' then some .single
      else if c = '\x22' then some .double
      else if c = '\\' then some .escape
      else if expands c then none
      else some .plain
  | .escape => if c = '\n' then none else some .plain
  | .single => if c = '\x27' then some .plain else some .single
  | .double =>
      if c = '\x22' then some .plain
      else if c = '\\' then some .doubleEscape
      else if c = '$' || c = '\x60' then none
      else some .double
  | .doubleEscape => if c = '\n' then none else some .double

/-- A character where a token may start. -/
def start (c : Char) : Option (List Token × LexState) :=
  if isBlank c then some ([], .gap)
  else if c = '\n' then some ([.op ['\n']], .gap)
  else if c = '#' then some ([], .comment)
  else if isOperator [c] then some ([], .op [c])
  else if c = '~' then none
  else (quote .plain c).map fun q => ([], .word q [c])

/-- A digit string right before a redirection operator is its number. -/
def delimited (text : CStr) (c : Char) : Token :=
  if (c = '<' || c = '>') && text.all Char.isDigit then .ioNumber text else .word text

/-- One character: the tokens it completes, and where the lexer stands after it. -/
def step : LexState → Char → Option (List Token × LexState)
  | .gap, c => start c
  | .comment, c => if c = '\n' then some ([.op ['\n']], .gap) else some ([], .comment)
  | .word q text, c =>
      if q = .plain ∧ delimits c then (start c).map fun r => (delimited text c :: r.1, r.2)
      else (quote q c).map fun q' => ([], .word q' (text ++ [c]))
  | .op text, c =>
      if isOperator (text ++ [c]) then some ([], .op (text ++ [c]))
      else (start c).map fun r => (.op text :: r.1, r.2)

def lexFrom : LexState → CStr → Option (List Token × LexState)
  | st, [] => some ([], st)
  | st, c :: rest =>
      (step st c).bind fun r => (lexFrom r.2 rest).map fun r' => (r.1 ++ r'.1, r'.2)

/-- The tokens of a line.  Its end delimits the last one as a blank does. -/
def lex (s : CStr) : Option (List Token) :=
  (lexFrom .gap (s ++ [' '])).bind fun r =>
    if r.2 = .gap ∨ r.2 = .comment then some r.1 else none

/-! ### Simple commands -/

structure Redirect where
  number : Option CStr
  op : CStr
  target : CStr
deriving DecidableEq

/-- The words of a simple command, in order, and its redirections. -/
structure SimpleCommand where
  words : List CStr
  redirects : List Redirect
deriving DecidableEq

def isRedirect (o : CStr) : Bool :=
  o ∈ ["<", "<&", "<>", ">", ">>", ">&", ">|"].map String.toList

/-- The simple command a line of tokens is, if it is one. -/
def parseTokens : List Token → Option SimpleCommand
  | [] => some ⟨[], []⟩
  | .word w :: rest => (parseTokens rest).map fun c => { c with words := w :: c.words }
  | .op o :: .word w :: rest =>
      if isRedirect o then
        (parseTokens rest).map fun c => { c with redirects := ⟨none, o, w⟩ :: c.redirects }
      else none
  | .ioNumber n :: .op o :: .word w :: rest =>
      if isRedirect o then
        (parseTokens rest).map fun c => { c with redirects := ⟨some n, o, w⟩ :: c.redirects }
      else none
  | _ => none

/-- The simple command a line is, if it is one and nothing in it is expanded. -/
def parse (s : CStr) : Option SimpleCommand := (lex s).bind parseTokens

example : parse "ip link set cr0 up".toList
    = some ⟨["ip", "link", "set", "cr0", "up"].map String.toList, []⟩ := by decide

/-! ### Words -/

/-- Text that is one word between blanks, as it stands. -/
def IsWord (w : CStr) : Prop := lexFrom .gap w = some ([], .word .plain w)

instance (w : CStr) : Decidable (IsWord w) := inferInstanceAs (Decidable (_ = _))

theorem lexFrom_append (s t : CStr) :
    ∀ st, lexFrom st (s ++ t) =
      (lexFrom st s).bind fun r => (lexFrom r.2 t).map fun r' => (r.1 ++ r'.1, r'.2) := by
  induction s with
  | nil => intro st; simp [lexFrom]
  | cons c s ih =>
      intro st
      rw [List.cons_append, lexFrom, lexFrom]
      cases step st c with
      | none => rfl
      | some r =>
          simp only [Option.bind_some, ih]
          cases lexFrom r.2 s with
          | none => rfl
          | some r' =>
              simp only [Option.bind_some, Option.map_some]
              cases lexFrom r'.2 t with
              | none => rfl
              | some r'' => simp

/-- A character that goes on with an unquoted word. -/
def continues (c : Char) : Bool := !delimits c && decide (quote .plain c = some .plain)

theorem lexFrom_continues (v : CStr) :
    ∀ w, (∀ c ∈ v, continues c = true) →
      lexFrom (.word .plain w) v = some ([], .word .plain (w ++ v)) := by
  induction v with
  | nil => intro w _; simp [lexFrom]
  | cons c v ih =>
      intro w h
      have hc := h c (by simp)
      simp only [continues, Bool.and_eq_true, Bool.not_eq_true', decide_eq_true_eq] at hc
      have hstep : step (.word .plain w) c = some ([], .word .plain (w ++ [c])) := by
        simp [step, hc.1, hc.2]
      rw [lexFrom, hstep, Option.bind_some, ih _ fun d hd => h d (by simp [hd])]
      simp

/-- A word goes on with unquoted characters that mean nothing to the shell. -/
theorem IsWord.append {w v : CStr} (hw : IsWord w) (hv : ∀ c ∈ v, continues c = true) :
    IsWord (w ++ v) := by
  unfold IsWord
  rw [lexFrom_append, hw, Option.bind_some, lexFrom_continues v w hv]
  rfl

/-- Text of characters that mean nothing to the shell is a word. -/
theorem isWord_of_continues {c : Char} {v : CStr} (hc : IsWord [c])
    (hv : ∀ d ∈ v, continues d = true) : IsWord (c :: v) :=
  hc.append (v := v) hv

/-! ### The words of a line that lexes -/

/-- What is read of an open word is the start of a word. -/
def Open : LexState → Prop
  | .word q text => lexFrom .gap text = some ([], .word q text)
  | _ => True

theorem open_start {c : Char} {r : List Token × LexState} (h : start c = some r) :
    Open r.2 ∧ ∀ w, .word w ∉ r.1 := by
  have hone : lexFrom .gap [c] = some r := by
    simp [lexFrom, step, h]
  unfold start at h
  split_ifs at h
  · obtain rfl := Option.some.inj h; exact ⟨trivial, by simp⟩
  · obtain rfl := Option.some.inj h; exact ⟨trivial, by simp⟩
  · obtain rfl := Option.some.inj h; exact ⟨trivial, by simp⟩
  · obtain rfl := Option.some.inj h; exact ⟨trivial, by simp⟩
  · obtain ⟨q, -, rfl⟩ := Option.map_eq_some_iff.mp h
    exact ⟨hone, by simp⟩

/-- One character keeps `Open`, and the words it completes are words. -/
theorem open_step {st : LexState} {c : Char} {r : List Token × LexState}
    (h : step st c = some r) (ho : Open st) : Open r.2 ∧ ∀ w, .word w ∈ r.1 → IsWord w := by
  have hstart : ∀ {t : Token} {r' : List Token × LexState}, start c = some r' →
      (∀ w, t = .word w → IsWord w) → Open r'.2 ∧ ∀ w, .word w ∈ t :: r'.1 → IsWord w := by
    intro t r' hs ht
    obtain ⟨hopen, hno⟩ := open_start hs
    refine ⟨hopen, fun w hw => ?_⟩
    rcases List.mem_cons.mp hw with hw | hw
    · exact ht w hw.symm
    · exact absurd hw (hno w)
  cases st with
  | gap =>
      obtain ⟨hopen, hno⟩ := open_start h
      exact ⟨hopen, fun w hw => absurd hw (hno w)⟩
  | comment =>
      simp only [step] at h
      split at h
      · obtain rfl := Option.some.inj h; exact ⟨trivial, by simp⟩
      · obtain rfl := Option.some.inj h; exact ⟨trivial, by simp⟩
  | op text =>
      simp only [step] at h
      split at h
      · obtain rfl := Option.some.inj h; exact ⟨trivial, by simp⟩
      · obtain ⟨r', hr', rfl⟩ := Option.map_eq_some_iff.mp h
        exact hstart hr' (by simp)
  | word q text =>
      have hstep := h
      simp only [step] at h
      split at h
      · rename_i hend
        obtain ⟨r', hr', rfl⟩ := Option.map_eq_some_iff.mp h
        refine hstart hr' fun w hw => ?_
        unfold delimited at hw
        split at hw
        · simp at hw
        · obtain rfl := by simpa using hw
          obtain ⟨rfl, -⟩ := hend
          exact ho
      · obtain ⟨q', -, rfl⟩ := Option.map_eq_some_iff.mp h
        refine ⟨?_, by simp⟩
        show lexFrom .gap (text ++ [c]) = _
        rw [lexFrom_append, ho, Option.bind_some]
        simp [lexFrom, hstep]

theorem open_lexFrom (s : CStr) :
    ∀ {st : LexState} {r : List Token × LexState}, lexFrom st s = some r → Open st →
      ∀ w, .word w ∈ r.1 → IsWord w := by
  induction s with
  | nil =>
      intro st r h _ w hw
      obtain rfl := Option.some.inj h
      simp at hw
  | cons c s ih =>
      intro st r h ho w hw
      rw [lexFrom] at h
      obtain ⟨r', hr', hrest⟩ := Option.bind_eq_some_iff.mp h
      obtain ⟨r'', hr'', rfl⟩ := Option.map_eq_some_iff.mp hrest
      obtain ⟨hopen, hwords⟩ := open_step hr' ho
      rcases List.mem_append.mp hw with hw | hw
      · exact hwords w hw
      · exact ih hr'' hopen w hw

/-- The words of a command are tokens, in the order of the line. -/
theorem words_sublist_of_parseTokens : ∀ {ts : List Token} {c : SimpleCommand},
    parseTokens ts = some c → (c.words.map Token.word).Sublist ts := by
  intro ts
  induction ts using parseTokens.induct with
  | case1 =>
      intro c h
      obtain rfl := Option.some.inj h
      exact List.Sublist.slnil
  | case2 u rest ih =>
      intro c h
      obtain ⟨c', hc', rfl⟩ := Option.map_eq_some_iff.mp h
      exact (ih hc').cons_cons _
  | case3 o u rest hredir ih =>
      intro c h
      rw [parseTokens, if_pos hredir] at h
      obtain ⟨c', hc', rfl⟩ := Option.map_eq_some_iff.mp h
      exact ((ih hc').cons _).cons _
  | case4 o u rest hredir =>
      intro c h
      rw [parseTokens, if_neg hredir] at h
      simp at h
  | case5 n o u rest hredir ih =>
      intro c h
      rw [parseTokens, if_pos hredir] at h
      obtain ⟨c', hc', rfl⟩ := Option.map_eq_some_iff.mp h
      exact (((ih hc').cons _).cons _).cons _
  | case6 n o u rest hredir =>
      intro c h
      rw [parseTokens, if_neg hredir] at h
      simp at h
  | case7 ts h1 h2 h3 h4 =>
      intro c h
      unfold parseTokens at h
      split at h
      · exact absurd rfl h1
      · exact absurd rfl (h2 _ _)
      · exact absurd rfl (h3 _ _ _)
      · exact absurd rfl (h4 _ _ _ _)
      · simp at h

/-- **Every word of a line that parses is a word between any blanks.** -/
theorem isWord_of_parse {s : CStr} {c : SimpleCommand} (h : parse s = some c) :
    ∀ w ∈ c.words, IsWord w := by
  intro w hw
  obtain ⟨ts, hlex, hparse⟩ := Option.bind_eq_some_iff.mp h
  obtain ⟨r, hr, hend⟩ := Option.bind_eq_some_iff.mp hlex
  have hts : r.1 = ts := by
    split at hend
    · simpa using hend
    · simp at hend
  have hmem : Token.word w ∈ ts :=
    (words_sublist_of_parseTokens hparse).subset (List.mem_map_of_mem hw)
  exact open_lexFrom _ hr trivial w (hts ▸ hmem)

/-! ### A line made of words -/

/-- Words with a blank between them. -/
def unwords : List CStr → CStr
  | [] => []
  | w :: ws => w ++ ws.flatMap fun v => ' ' :: v

theorem lexFrom_word {w : CStr} (hw : IsWord w) (rest : CStr) :
    lexFrom .gap (w ++ ' ' :: rest) = (lexFrom .gap rest).map fun r => (.word w :: r.1, r.2) := by
  rw [lexFrom_append, hw, Option.bind_some, lexFrom]
  have hblank : step (.word .plain w) ' ' = some ([.word w], .gap) := by
    simp [step, delimits, isBlank, start, delimited]
  rw [hblank, Option.bind_some]
  cases lexFrom .gap rest <;> rfl

theorem lexFrom_unwords {ws : List CStr} (hne : ws ≠ []) (hws : ∀ w ∈ ws, IsWord w) (rest : CStr) :
    lexFrom .gap (unwords ws ++ ' ' :: rest)
      = (lexFrom .gap rest).map fun r => (ws.map .word ++ r.1, r.2) := by
  induction ws with
  | nil => exact absurd rfl hne
  | cons w ws ih =>
      cases ws with
      | nil =>
          show lexFrom .gap ((w ++ []) ++ ' ' :: rest) = _
          rw [List.append_nil]
          exact lexFrom_word (hws w (by simp)) rest
      | cons w' ws' =>
          show lexFrom .gap ((w ++ ' ' :: unwords (w' :: ws')) ++ ' ' :: rest) = _
          rw [List.append_assoc, List.cons_append, lexFrom_word (hws w (by simp)),
            ih (by simp) fun v hv => hws v (by simp [hv])]
          cases lexFrom .gap rest <;> rfl

theorem parseTokens_words (ws : List CStr) (ts : List Token) :
    parseTokens (ws.map .word ++ ts)
      = (parseTokens ts).map fun c => { c with words := ws ++ c.words } := by
  induction ws with
  | nil => cases h : parseTokens ts <;> simp [h]
  | cons w ws ih =>
      show (parseTokens (ws.map .word ++ ts)).map _ = _
      rw [ih]
      cases parseTokens ts <;> rfl

/--
**A line of words with a fixed tail parses to these words exactly when each of them
is one.**
-/
theorem parse_unwords_iff {ws : List CStr} (hne : ws ≠ []) {tail rest : CStr} {ts : List Token}
    {redirects : List Redirect} (htail : tail ++ [' '] = ' ' :: rest)
    (hrest : lexFrom .gap rest = some (ts, .gap)) (hts : parseTokens ts = some ⟨[], redirects⟩) :
    parse (unwords ws ++ tail) = some ⟨ws, redirects⟩ ↔ ∀ w ∈ ws, IsWord w := by
  refine ⟨fun h => isWord_of_parse h, fun hws => ?_⟩
  unfold parse lex
  rw [List.append_assoc, htail, lexFrom_unwords hne hws, hrest]
  simp [parseTokens_words, hts]

end Shell

end Cruntime
