/-
Words that ask for options.

`Reads` says what a list of words asks for, as the conventions for options have it: a
dash and short options, the last of them with its argument, or two dashes and the name
of a long option, or enough of it.  A parser that stops at the first operand reads such
words as what they ask for, and is then at what follows them.

A `--` ends the options, and the parser stops behind it.  Where a loop before it has met a
`--` as well, and an element in between was taken by hand, it takes that element for an
operand it has skipped: the element comes out behind the second `--`.
-/
import Cruntime.Lib.OptionScan

namespace Cruntime

namespace Getopt

/-- `Reads options longs rest words results`: the characters `rest` of an element, all of them
short options, and then the words ask for the results. -/
inductive Reads (options : CStr) (longs : List LongOption) : CStr → List CStr → List Result → Prop
  | nil : Reads options longs [] [] []
  | element {c : Char} {rest : CStr} {words : List CStr} {results : List Result} (hc : c ≠ '-')
      (h : Reads options longs (c :: rest) words results) :
      Reads options longs [] (('-' :: c :: rest) :: words) results
  | flag {c : Char} {rest : CStr} {words : List CStr} {results : List Result}
      (hc : shortArg options c = some false) (h : Reads options longs rest words results) :
      Reads options longs (c :: rest) words (.opt c none :: results)
  | attached {c : Char} {arg : CStr} {words : List CStr} {results : List Result}
      (hc : shortArg options c = some true) (harg : arg ≠ [])
      (h : Reads options longs [] words results) :
      Reads options longs (c :: arg) words (.opt c (some arg) :: results)
  | separate {c : Char} {arg : CStr} {words : List CStr} {results : List Result}
      (hc : shortArg options c = some true) (h : Reads options longs [] words results) :
      Reads options longs [c] (arg :: words) (.opt c (some arg) :: results)
  | long {name : CStr} {o : LongOption} {words : List CStr} {results : List Result}
      (hname : name ≠ []) (heq : '=' ∉ name) (ho : findLong longs name = some o)
      (harg : o.hasArg = false) (h : Reads options longs [] words results) :
      Reads options longs [] (('-' :: '-' :: name) :: words) (o.result none :: results)
  | longAttached {name arg : CStr} {o : LongOption} {words : List CStr} {results : List Result}
      (heq : '=' ∉ name) (ho : findLong longs name = some o)
      (harg : o.hasArg = true) (h : Reads options longs [] words results) :
      Reads options longs [] (('-' :: '-' :: (name ++ '=' :: arg)) :: words)
        (o.result (some arg) :: results)
  | longSeparate {name arg : CStr} {o : LongOption} {words : List CStr} {results : List Result}
      (hname : name ≠ []) (heq : '=' ∉ name) (ho : findLong longs name = some o)
      (harg : o.hasArg = true) (h : Reads options longs [] words results) :
      Reads options longs [] (('-' :: '-' :: name) :: arg :: words)
        (o.result (some arg) :: results)

section

variable {optstring : CStr} {longs : List LongOption} {g : State}

/-! ### One option -/

/-- After a state that has moved on past an element. -/
theorem ahead_of_nil {g : State} (h : g.nextchar = []) : g.ahead = g.argv.drop g.optind := by
  unfold State.ahead
  rw [if_pos h]

theorem ahead_of_ne_nil {g : State} (h : g.nextchar ≠ []) : g.ahead = g.argv.drop (g.optind + 1) := by
  unfold State.ahead
  rw [if_neg h]

theorem drop_succ_of_drop {l words : List CStr} {k : Nat} {a : CStr} (h : l.drop k = a :: words) :
    l[k]? = some a ∧ l.drop (k + 1) = words := by
  constructor
  · rw [← List.head?_drop, h]
    rfl
  · rw [← List.drop_drop, h]
    rfl

/-- One option of the words: the call returns it and is at the rest of them. -/
def Step (optstring : CStr) (longs : List LongOption) (g : State) (r : Result) (rest : CStr)
    (words : List CStr) : Prop :=
  ∃ g', call optstring longs g = (r, g') ∧ g'.nextchar = rest ∧ g'.ahead = words

/-- A flag in the middle of an element, or at its end. -/
theorem step_flag (hg : Ordered g) {c : Char} {rest : CStr} (hnext : g.nextchar = c :: rest)
    (hc : shortArg (optionsOf optstring) c = some false) :
    Step optstring longs g (.opt c none) rest g.ahead := by
  refine ⟨(shortOption (optionsOf optstring) c rest g).2, ?_, ?_, ?_⟩
  · rw [call_char hg hnext]
    simp [shortOption, hc]
  · simp [shortOption, hc]
  · rw [ahead_of_ne_nil (g := g) (by simp [hnext])]
    by_cases hrest : rest = [] <;> simp [shortOption, hc, State.ahead, hrest]

/-- An option whose argument is the rest of its element. -/
theorem step_attached (hg : Ordered g) {c : Char} {arg : CStr} (hnext : g.nextchar = c :: arg)
    (hc : shortArg (optionsOf optstring) c = some true) (harg : arg ≠ []) :
    Step optstring longs g (.opt c (some arg)) [] g.ahead := by
  refine ⟨(shortOption (optionsOf optstring) c arg g).2, ?_, ?_, ?_⟩
  · rw [call_char hg hnext]
    simp [shortOption, hc, harg]
  · simp [shortOption, hc, harg]
  · rw [ahead_of_ne_nil (g := g) (by simp [hnext])]
    simp [shortOption, hc, State.ahead, harg]

/-- An option whose argument is the next word. -/
theorem step_separate (hg : Ordered g) {c : Char} {arg : CStr} {words : List CStr}
    (hnext : g.nextchar = [c]) (hahead : g.ahead = arg :: words)
    (hc : shortArg (optionsOf optstring) c = some true) :
    Step optstring longs g (.opt c (some arg)) [] words := by
  rw [ahead_of_ne_nil (g := g) (by simp [hnext])] at hahead
  obtain ⟨harg, hwords⟩ := drop_succ_of_drop hahead
  refine ⟨(shortOption (optionsOf optstring) c [] g).2, ?_, ?_, ?_⟩
  · rw [call_char hg hnext]
    simp [shortOption, hc, harg]
  · simp [shortOption, hc, harg]
  · simp [shortOption, hc, harg, State.ahead, hwords]

/-- A call at a long option. -/
theorem call_long (hg : Ordered g) (hnext : g.nextchar = []) {text : CStr} {words : List CStr}
    (hahead : g.ahead = ('-' :: '-' :: text) :: words) (htext : text ≠ []) :
    call optstring longs g = longOption longs text g ∧ g.argv.drop (g.optind + 1) = words := by
  rw [ahead_of_nil hnext] at hahead
  obtain ⟨ha, hwords⟩ := drop_succ_of_drop hahead
  refine ⟨?_, hwords⟩
  rw [call_element hg hnext ha (by simpa using htext), if_neg (by simp [isOperand])]
  simp

theorem step_long (hg : Ordered g) (hnext : g.nextchar = []) {name : CStr} {o : LongOption}
    {words : List CStr} (hahead : g.ahead = ('-' :: '-' :: name) :: words) (hname : name ≠ [])
    (heq : '=' ∉ name) (ho : findLong longs name = some o) (harg : o.hasArg = false) :
    Step optstring longs g (o.result none) [] words := by
  obtain ⟨hcall, hwords⟩ := @call_long optstring longs g hg hnext _ _ hahead hname
  refine ⟨(longOption longs name g).2, ?_, ?_, ?_⟩
  · rw [hcall]
    simp [longOption, strchr_eq_none.mpr heq, ho, harg]
  · simp [longOption, strchr_eq_none.mpr heq, ho, harg]
  · simp [longOption, strchr_eq_none.mpr heq, ho, harg, State.ahead, hwords]

theorem step_longAttached (hg : Ordered g) (hnext : g.nextchar = []) {name arg : CStr}
    {o : LongOption} {words : List CStr}
    (hahead : g.ahead = ('-' :: '-' :: (name ++ '=' :: arg)) :: words) (heq : '=' ∉ name)
    (ho : findLong longs name = some o) (harg : o.hasArg = true) :
    Step optstring longs g (o.result (some arg)) [] words := by
  obtain ⟨hcall, hwords⟩ := @call_long optstring longs g hg hnext _ _ hahead (by simp)
  refine ⟨(longOption longs (name ++ '=' :: arg) g).2, ?_, ?_, ?_⟩
  · rw [hcall]
    simp [longOption, strchr_append heq, ho, harg]
  · simp [longOption, strchr_append heq, ho, harg]
  · simp [longOption, strchr_append heq, ho, harg, State.ahead, hwords]

theorem step_longSeparate (hg : Ordered g) (hnext : g.nextchar = []) {name arg : CStr}
    {o : LongOption} {words : List CStr} (hahead : g.ahead = ('-' :: '-' :: name) :: arg :: words)
    (hname : name ≠ []) (heq : '=' ∉ name) (ho : findLong longs name = some o)
    (harg : o.hasArg = true) : Step optstring longs g (o.result (some arg)) [] words := by
  obtain ⟨hcall, hwords⟩ := @call_long optstring longs g hg hnext _ _ hahead hname
  obtain ⟨ha, hwords'⟩ := drop_succ_of_drop hwords
  refine ⟨(longOption longs name g).2, ?_, ?_, ?_⟩
  · rw [hcall]
    simp [longOption, strchr_eq_none.mpr heq, ho, harg, ha]
  · simp [longOption, strchr_eq_none.mpr heq, ho, harg, ha]
  · simp [longOption, strchr_eq_none.mpr heq, ho, harg, ha, State.ahead, hwords']

theorem LongOption.result_ne (o : LongOption) (arg : Option CStr) :
    o.result arg ≠ .done ∧ o.result arg ≠ .unknown := by
  unfold LongOption.result
  cases o.val <;> simp

/-- A step, and what follows it. -/
theorem scan_step (hg : Ordered g) {r : Result} {rest : CStr} {words : List CStr}
    (hstep : Step optstring longs g r rest words) (hdone : r ≠ .done) (hunknown : r ≠ .unknown)
    {tail : List CStr} {results : List Result}
    (ih : ∀ g' : State, Ordered g' → g'.nextchar = rest → g'.ahead = words →
      ∃ g'', MovedOn g' g'' ∧ g''.nextchar = [] ∧ g''.ahead = tail ∧
        ∀ n, scan optstring longs (results.length + n) g' =
          (scan optstring longs n g'').map fun x => (results ++ x.1, x.2)) :
    ∃ g'', MovedOn g g'' ∧ g''.nextchar = [] ∧ g''.ahead = tail ∧
      ∀ n, scan optstring longs ((r :: results).length + n) g =
        (scan optstring longs n g'').map fun x => (r :: results ++ x.1, x.2) := by
  obtain ⟨g', hcall, hnext, hahead⟩ := hstep
  obtain ⟨hmoved, -⟩ := call_movedOn hg hcall hdone
  obtain ⟨g'', hmoved', hnext'', hahead'', hscan⟩ := ih g' (hmoved.ordered hg) hnext hahead
  refine ⟨g'', hmoved.trans hmoved', hnext'', hahead'', fun n => ?_⟩
  rw [List.length_cons, Nat.add_right_comm, scan_succ hcall hdone hunknown, hscan n, Option.map_map]
  rfl

/-- **Words that ask for options are read as the options**, and the parser is then at what
follows them. -/
theorem scan_reads {rest : CStr} {words : List CStr} {results : List Result}
    (h : Reads (optionsOf optstring) longs rest words results) (tail : List CStr) :
    ∀ g : State, Ordered g → g.nextchar = rest → g.ahead = words ++ tail →
      ∃ g', MovedOn g g' ∧ g'.nextchar = [] ∧ g'.ahead = tail ∧
        ∀ n, scan optstring longs (results.length + n) g =
          (scan optstring longs n g').map fun x => (results ++ x.1, x.2) := by
  induction h with
  | nil =>
      intro g hg hnext hahead
      refine ⟨g, ⟨rfl, rfl, rfl, rfl, rfl, le_rfl⟩, hnext, hahead, fun n => ?_⟩
      rw [List.length_nil, Nat.zero_add]
      cases scan optstring longs n g <;> rfl
  | @element c rest words results hc _ ih =>
      intro g hg hnext hahead
      -- the element is read from its first character on
      have hg' : Ordered { g with nextchar := c :: rest } :=
        ⟨hg.initialized, hg.order, hg.pos, hg.first, hg.last⟩
      rw [ahead_of_nil hnext] at hahead
      obtain ⟨ha, hwords⟩ := drop_succ_of_drop hahead
      have hcall : call optstring longs g = call optstring longs { g with nextchar := c :: rest } := by
        rw [call_char hg' rfl, call_element hg hnext ha (by simp [hc]), if_neg (by simp [isOperand])]
        split
        · rename_i heq
          simp only [List.cons.injEq, true_and] at heq
          exact absurd heq.1 hc
        · rename_i heq
          simp only [List.cons.injEq, true_and] at heq
          obtain ⟨rfl, rfl⟩ := heq
          rfl
        · rename_i hno
          exact absurd rfl (hno c rest)
      have hsame : ∀ n, scan optstring longs n g
          = scan optstring longs n { g with nextchar := c :: rest } := by
        intro n
        cases n with
        | zero => rfl
        | succ n => unfold scan; rw [hcall]
      obtain ⟨g', hmoved, hnext', hahead', hscan⟩ := ih { g with nextchar := c :: rest } hg' rfl
        (by rw [ahead_of_ne_nil (by simp)]; exact hwords)
      exact ⟨g', ⟨hmoved.argv, hmoved.initialized, hmoved.order, hmoved.first, hmoved.last,
        hmoved.optind⟩, hnext', hahead', fun n => (hsame _).trans (hscan n)⟩
  | flag hc _ ih =>
      intro g hg hnext hahead
      refine scan_step hg (step_flag hg hnext hc) (by simp) (by simp) fun g' hg' hnext' hahead' => ?_
      exact ih g' hg' hnext' (hahead'.trans hahead)
  | attached hc harg _ ih =>
      intro g hg hnext hahead
      refine scan_step hg (step_attached hg hnext hc harg) (by simp) (by simp)
        fun g' hg' hnext' hahead' => ?_
      exact ih g' hg' hnext' (hahead'.trans hahead)
  | separate hc _ ih =>
      intro g hg hnext hahead
      exact scan_step hg (step_separate hg hnext hahead hc) (by simp) (by simp) ih
  | @long name o words results hname heq ho harg _ ih =>
      intro g hg hnext hahead
      exact scan_step hg (step_long hg hnext hahead hname heq ho harg) (o.result_ne none).1
        (o.result_ne none).2 ih
  | @longAttached name arg o words results heq ho harg _ ih =>
      intro g hg hnext hahead
      exact scan_step hg (step_longAttached hg hnext hahead heq ho harg) (o.result_ne _).1
        (o.result_ne _).2 ih
  | @longSeparate name arg o words results hname heq ho harg _ ih =>
      intro g hg hnext hahead
      exact scan_step hg (step_longSeparate hg hnext hahead hname heq ho harg) (o.result_ne _).1
        (o.result_ne _).2 ih

/-! ### Where the scan stops -/

/-- The options of the words, where the parser stops behind them. -/
theorem scan_stop {g' : State} {results : List Result} {stop : Option State}
    (hscan : ∀ n, scan optstring longs (results.length + n) g =
      (scan optstring longs n g').map fun x => (results ++ x.1, x.2))
    (hstop : scan optstring longs (0 + 1) g' = some ([], stop)) :
    scan optstring longs (results.length + 1) g = some (results, stop) := by
  rw [hscan 1, hstop]
  simp

/-- The parser stops at an operand. -/
theorem scan_operand (hg : Ordered g) (hnext : g.nextchar = []) {a : CStr} {tail : List CStr}
    (hahead : g.ahead = a :: tail) (ha : isOperand a = true) (n : Nat) :
    scan optstring longs (n + 1) g = some ([], some g) := by
  rw [ahead_of_nil hnext] at hahead
  refine scan_done ?_
  rw [call_element hg hnext (drop_succ_of_drop hahead).1 (ne_dashes_of_isOperand ha), if_pos ha]

/-- It stops behind a `--`, if none came before. -/
theorem scan_dashes (hg : Ordered g) (hnext : g.nextchar = []) {tail : List CStr}
    (hahead : g.ahead = "--".toList :: tail) (hrange : g.firstNonopt = g.lastNonopt) (n : Nat) :
    scan optstring longs (n + 1) g = some ([], some { g with
      optind := g.optind + 1
      firstNonopt := g.optind + 1
      lastNonopt := g.argv.length }) := by
  rw [ahead_of_nil hnext] at hahead
  refine scan_done ?_
  rw [call_dashes hg hnext (drop_succ_of_drop hahead).1]
  have hskip : g.skipDashes = { g with
      optind := g.argv.length
      firstNonopt := g.optind + 1
      lastNonopt := g.argv.length } := by
    simp [State.skipDashes, hrange]
  rw [hskip]
  have hlen : g.optind + 1 + tail.length = g.argv.length := by
    have := congrArg List.length hahead
    simp only [List.length_drop, List.length_cons] at this
    omega
  dsimp only
  by_cases hend : g.optind + 1 = g.argv.length
  · rw [if_neg (by simpa using hend), hend]
  · rw [if_pos hend]

/-- Behind a second `--` it stops too early: the operands it takes to have skipped, which end
where the first element of the vector had been read by hand, come in between. -/
theorem scan_dashes_again (hg : Ordered g) (hnext : g.nextchar = []) {tail : List CStr}
    (hahead : g.ahead = "--".toList :: tail) (hrange : g.firstNonopt < g.lastNonopt) (n : Nat) :
    scan optstring longs (n + 1) g = some ([], some { g with
      argv := g.argv.take g.firstNonopt ++
        ((g.argv.drop g.lastNonopt).take (g.optind + 1 - g.lastNonopt) ++
          ((g.argv.drop g.firstNonopt).take (g.lastNonopt - g.firstNonopt) ++ tail))
      optind := g.firstNonopt + (g.optind + 1 - g.lastNonopt)
      firstNonopt := g.firstNonopt + (g.optind + 1 - g.lastNonopt)
      lastNonopt := g.argv.length }) := by
  have hlast := hg.last
  rw [ahead_of_nil hnext] at hahead
  obtain ⟨hdash, htail⟩ := drop_succ_of_drop hahead
  have hlen : g.optind + 1 + tail.length = g.argv.length := by
    have := congrArg List.length hahead
    simp only [List.length_drop, List.length_cons] at this
    omega
  have hargv : (g.argv.take g.firstNonopt ++
      ((g.argv.drop g.lastNonopt).take (g.optind + 1 - g.lastNonopt) ++
        ((g.argv.drop g.firstNonopt).take (g.lastNonopt - g.firstNonopt) ++ tail))).length
      = g.argv.length := by
    simp only [List.length_append, List.length_take, List.length_drop]
    omega
  refine scan_done ?_
  rw [call_dashes hg hnext hdash]
  have hskip : g.skipDashes = { g with
      argv := g.argv.take g.firstNonopt ++
        ((g.argv.drop g.lastNonopt).take (g.optind + 1 - g.lastNonopt) ++
          ((g.argv.drop g.firstNonopt).take (g.lastNonopt - g.firstNonopt) ++ tail))
      optind := g.argv.length
      firstNonopt := g.firstNonopt + (g.optind + 1 - g.lastNonopt)
      lastNonopt := g.argv.length } := by
    unfold State.skipDashes
    dsimp only
    rw [if_pos ⟨by omega, by omega⟩]
    simp only [State.exchange, htail, hargv]
  rw [hskip, if_pos]
  dsimp only
  omega

end

end Getopt

end Cruntime
