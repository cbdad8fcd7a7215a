/-
`getopt_long`, as the GNU C library implements it.

The parser keeps its place in static variables: the element it is at, the characters of
it that are still to come, the range of operands it has skipped, and how it orders
operands.  The first call of a process sets them up, from the option string it is given;
later calls find them as they were left, whatever option string they come with.

`call` is one call, and the lemmas say what it does in a parser that was asked to stop at
the first operand.  Options with an optional argument and `-W` are left out.
-/
import Cruntime.Lib.CText

namespace Cruntime

namespace Getopt

/-- What to do at an element that is no option. -/
inductive Order where
  | requireOrder
  | permute
  | returnInOrder
deriving DecidableEq

/-- An entry of the table of long options; no `val` is the value 0. -/
structure LongOption where
  name : CStr
  hasArg : Bool
  val : Option Char
deriving DecidableEq

/-- What a call returns, and `optarg`: -1, '?', 1 for an operand, the character of an option,
or 0 for a long option without one. -/
inductive Result where
  | done
  | unknown
  | operand (arg : CStr)
  | opt (c : Char) (arg : Option CStr)
  | long (name : CStr) (arg : Option CStr)
deriving DecidableEq

/-- The static variables, and the vector they are about. -/
structure State where
  argv : List CStr
  optind : Nat
  initialized : Bool
  /-- The rest of the element that is being read. -/
  nextchar : CStr
  firstNonopt : Nat
  lastNonopt : Nat
  order : Order
deriving DecidableEq

/-- Before the first call of a process. -/
def State.fresh (argv : List CStr) : State := ⟨argv, 1, false, [], 0, 0, .permute⟩

/-- The order an option string asks for, where `POSIXLY_CORRECT` is not set. -/
def orderOf : CStr → Order
  | '-' :: _ => .returnInOrder
  | '+' :: _ => .requireOrder
  | _ => .permute

/-- The option string without the character that asks for an order. -/
def optionsOf : CStr → CStr
  | '-' :: rest => rest
  | '+' :: rest => rest
  | optstring => optstring

/-- An element that is no option: `-` alone is one too. -/
def isOperand : CStr → Bool
  | '-' :: _ :: _ => false
  | _ => true

/-- Whether a character is an option, and whether it takes an argument. -/
def shortArg (options : CStr) (c : Char) : Option Bool :=
  if c = ':' ∨ c = ';' then none
  else match options.dropWhile (· != c) with
    | [] => none
    | _ :: ':' :: _ => some true
    | _ :: _ => some false

/-- The entry a name stands for: its own, or the ones it abbreviates if they do the same. -/
def findLong (longs : List LongOption) (name : CStr) : Option LongOption :=
  match longs.find? (fun o => o.name == name) with
  | some o => some o
  | none =>
      match longs.filter fun o => name.isPrefixOf o.name with
      | [] => none
      | o :: others =>
          if others.all fun p => p.hasArg == o.hasArg && p.val == o.val then some o else none

/-- The value a long option returns. -/
def LongOption.result (o : LongOption) (arg : Option CStr) : Result :=
  match o.val with
  | some c => .opt c arg
  | none => .long o.name arg

namespace State

/-- `_getopt_initialize`. -/
def init (optstring : CStr) (g : State) : State :=
  if g.optind = 0 ∨ g.initialized = false then
    let optind := if g.optind = 0 then 1 else g.optind
    { g with
      optind := optind
      initialized := true
      nextchar := []
      firstNonopt := optind
      lastNonopt := optind
      order := orderOf optstring }
  else g

/-- Move the options read last in front of the operands that were skipped. -/
def exchange (g : State) : State :=
  { g with
    argv := g.argv.take g.firstNonopt ++
      ((g.argv.drop g.lastNonopt).take (g.optind - g.lastNonopt) ++
        ((g.argv.drop g.firstNonopt).take (g.lastNonopt - g.firstNonopt) ++ g.argv.drop g.optind))
    firstNonopt := g.firstNonopt + (g.optind - g.lastNonopt)
    lastNonopt := g.optind }

/-- Give the range of operands rational values if `optind` has been moved back. -/
def clamp (g : State) : State :=
  { g with
    firstNonopt := min g.firstNonopt g.optind
    lastNonopt := min g.lastNonopt g.optind }

/-- Skip operands, those skipped before moved along. -/
def skipOperands (g : State) : State :=
  let g := if g.firstNonopt ≠ g.lastNonopt ∧ g.lastNonopt ≠ g.optind then g.exchange
    else if g.lastNonopt ≠ g.optind then { g with firstNonopt := g.optind }
    else g
  let optind := g.optind + ((g.argv.drop g.optind).takeWhile isOperand).length
  { g with optind := optind, lastNonopt := optind }

/-- At `--`: skip it like an option and everything after it like operands. -/
def skipDashes (g : State) : State :=
  let g := { g with optind := g.optind + 1 }
  let g := if g.firstNonopt ≠ g.lastNonopt ∧ g.lastNonopt ≠ g.optind then g.exchange
    else if g.firstNonopt = g.lastNonopt then { g with firstNonopt := g.optind }
    else g
  { g with lastNonopt := g.argv.length, optind := g.argv.length }

end State

open State

/-- The next option character `c` of an element, `rest` after it. -/
def shortOption (options : CStr) (c : Char) (rest : CStr) (g : State) : Result × State :=
  -- Increment `optind` when we start to process its last character
  let g := { g with nextchar := rest, optind := if rest = [] then g.optind + 1 else g.optind }
  match shortArg options c with
  | none => (.unknown, g)
  | some false => (.opt c none, g)
  | some true =>
      if rest ≠ [] then
        (.opt c (some rest), { g with nextchar := [], optind := g.optind + 1 })
      else
        match g.argv[g.optind]? with
        | some arg => (.opt c (some arg), { g with nextchar := [], optind := g.optind + 1 })
        | none => (.unknown, { g with nextchar := [] })

/-- A long option, `text` after its dashes. -/
def longOption (longs : List LongOption) (text : CStr) (g : State) : Result × State :=
  let (name, value) := match strchr text '=' with
    | some (name, value) => (name, some value)
    | none => (text, none)
  let g := { g with nextchar := [], optind := g.optind + 1 }
  match findLong longs name, value with
  | none, _ => (.unknown, g)
  | some o, some value => if o.hasArg then (o.result (some value), g) else (.unknown, g)
  | some o, none =>
      if o.hasArg then
        match g.argv[g.optind]? with
        | some arg => (o.result (some arg), { g with optind := g.optind + 1 })
        | none => (.unknown, g)
      else (o.result none, g)

/-- One call of `getopt_long`. -/
def call (optstring : CStr) (longs : List LongOption) (g : State) : Result × State :=
  let g := g.init optstring
  let options := optionsOf optstring
  match g.nextchar with
  | c :: rest => shortOption options c rest g
  | [] =>
      -- Advance to the next element
      let g := g.clamp
      let g := if g.order = .permute then g.skipOperands else g
      let g := if g.argv[g.optind]? = some "--".toList then g.skipDashes else g
      match g.argv[g.optind]? with
      | none =>
          -- back over any operands that were skipped and permuted
          (.done, if g.firstNonopt ≠ g.lastNonopt then { g with optind := g.firstNonopt } else g)
      | some a =>
          if isOperand a then
            if g.order = .requireOrder then (.done, g)
            else (.operand a, { g with optind := g.optind + 1 })
          else
            match a with
            | '-' :: '-' :: text => longOption longs text g
            | '-' :: c :: rest => shortOption options c rest g
            | _ => (.unknown, g)

/-- `while ((opt = getopt_long(..)) != -1)`, with a body that goes on in a new state or leaves
the function; `none` when the fuel runs out. -/
def loop {σ ρ : Type} (optstring : CStr) (longs : List LongOption) (body : σ → Result → Except ρ σ) :
    Nat → State → σ → Option (Except ρ (σ × State))
  | 0, _, _ => none
  | n + 1, g, s =>
      match call optstring longs g with
      | (.done, g') => some (.ok (s, g'))
      | (r, g') =>
          match body s r with
          | .ok s' => loop optstring longs body n g' s'
          | .error e => some (.error e)

/-! ### A parser that stops at the first operand -/

/-- The first call of the process asked for this order, and the range of operands is behind. -/
structure Ordered (g : State) : Prop where
  initialized : g.initialized = true
  order : g.order = .requireOrder
  pos : 0 < g.optind
  first : g.firstNonopt ≤ g.optind
  last : g.lastNonopt ≤ g.optind

section

variable {optstring : CStr} {longs : List LongOption} {g : State}

/-- A parser that is set up stays so. -/
theorem init_eq_self (hset : g.initialized = true) (hpos : 0 < g.optind) :
    g.init optstring = g := by
  unfold State.init
  rw [if_neg]
  rintro (h | h)
  · omega
  · rw [hset] at h
    simp at h

theorem Ordered.init_eq (hg : Ordered g) : g.init optstring = g :=
  init_eq_self hg.initialized hg.pos

theorem Ordered.clamp_eq (hg : Ordered g) : g.clamp = g := by
  unfold State.clamp
  rw [min_eq_left hg.first, min_eq_left hg.last]

/-- In the middle of an element. -/
theorem call_char (hg : Ordered g) {c : Char} {rest : CStr} (hnext : g.nextchar = c :: rest) :
    call optstring longs g = shortOption (optionsOf optstring) c rest g := by
  unfold call
  simp only [hg.init_eq, hnext]

theorem ne_dashes_of_isOperand {a : CStr} (h : isOperand a = true) : a ≠ "--".toList := by
  rintro rfl
  simp [isOperand] at h

/-- At the start of an element. -/
theorem call_element (hg : Ordered g) (hnext : g.nextchar = []) {a : CStr}
    (ha : g.argv[g.optind]? = some a) (hdash : a ≠ "--".toList) :
    call optstring longs g =
      if isOperand a then (.done, g)
      else match a with
        | '-' :: '-' :: text => longOption longs text g
        | '-' :: c :: rest => shortOption (optionsOf optstring) c rest g
        | _ => (.unknown, g) := by
  unfold call
  simp only [hg.init_eq, hnext, hg.clamp_eq, hg.order, reduceCtorEq, if_false, if_true, ha,
    Option.some.injEq, if_neg hdash]

/-- At the end of the vector. -/
theorem call_end (hg : Ordered g) (hnext : g.nextchar = []) (ha : g.argv[g.optind]? = none) :
    call optstring longs g =
      (.done, if g.firstNonopt ≠ g.lastNonopt then { g with optind := g.firstNonopt } else g) := by
  unfold call
  simp only [hg.init_eq, hnext, hg.clamp_eq, hg.order, reduceCtorEq, if_false, ha]

/-- At `--`. -/
theorem call_dashes (hg : Ordered g) (hnext : g.nextchar = [])
    (ha : g.argv[g.optind]? = some "--".toList) :
    call optstring longs g =
      (.done, if g.skipDashes.firstNonopt ≠ g.skipDashes.lastNonopt then
        { g.skipDashes with optind := g.skipDashes.firstNonopt } else g.skipDashes) := by
  have hend : g.skipDashes.argv[g.skipDashes.optind]? = none := by
    unfold State.skipDashes
    dsimp only
    split_ifs with h₁ h₂
    · rw [List.getElem?_eq_none_iff]
    · rw [List.getElem?_eq_none_iff]
    · rw [List.getElem?_eq_none_iff]
  unfold call
  simp only [hg.init_eq, hnext, hg.clamp_eq, hg.order, reduceCtorEq, if_false, ha, if_true, hend]

/-! ### The options of the tables -/

/-- An option that the tables have, with an argument when they say so. -/
def Known (options : CStr) (longs : List LongOption) : Result → Prop
  | .opt c arg => shortArg options c = some arg.isSome ∨
      ∃ o ∈ longs, o.val = some c ∧ o.hasArg = arg.isSome
  | .long name arg => ∃ o ∈ longs, o.val = none ∧ o.name = name ∧ o.hasArg = arg.isSome
  | _ => False

theorem mem_of_shortArg {options : CStr} {c : Char} {b : Bool} (h : shortArg options c = some b) :
    c ∈ options := by
  unfold shortArg at h
  split at h
  · simp at h
  · by_contra hnot
    have hall : ∀ x ∈ options, (x != c) = true := by
      intro x hx
      simp only [bne_iff_ne, ne_eq]
      rintro rfl
      exact hnot hx
    rw [List.dropWhile_eq_nil_iff.mpr hall] at h
    simp at h

theorem mem_of_findLong {name : CStr} {o : LongOption} (h : findLong longs name = some o) :
    o ∈ longs := by
  unfold findLong at h
  split at h
  · rename_i o' hfind
    obtain rfl := Option.some.inj h
    exact List.mem_of_find?_eq_some hfind
  · split at h
    · simp at h
    · rename_i o' others hfilter
      split at h
      · obtain rfl := Option.some.inj h
        have hmem : o' ∈ longs.filter fun p => name.isPrefixOf p.name := by
          rw [hfilter]
          simp
        exact List.mem_of_mem_filter hmem
      · simp at h

theorem known_result {options : CStr} {o : LongOption} (ho : o ∈ longs) {arg : Option CStr}
    (harg : o.hasArg = arg.isSome) : Known options longs (o.result arg) := by
  unfold LongOption.result
  cases hval : o.val with
  | none => exact ⟨o, ho, hval, rfl, harg⟩
  | some c => exact Or.inr ⟨o, ho, hval, harg⟩

theorem shortOption_known (options : CStr) (c : Char) (rest : CStr) (g : State) :
    (shortOption options c rest g).1 = .unknown ∨
      Known options longs (shortOption options c rest g).1 := by
  unfold shortOption
  dsimp only
  split
  · exact Or.inl rfl
  · rename_i hc
    exact Or.inr (Or.inl hc)
  · rename_i hc
    by_cases hrest : rest = []
    · subst hrest
      simp only [ne_eq, not_true_eq_false, if_false]
      split
      · exact Or.inr (Or.inl hc)
      · exact Or.inl rfl
    · rw [if_pos hrest]
      exact Or.inr (Or.inl hc)

theorem longOption_known (options : CStr) (text : CStr) (g : State) :
    (longOption longs text g).1 = .unknown ∨ Known options longs (longOption longs text g).1 := by
  unfold longOption
  dsimp only
  split
  · exact Or.inl rfl
  · rename_i o value ho hvalue
    split
    · rename_i harg
      exact Or.inr (known_result (mem_of_findLong ho) harg)
    · exact Or.inl rfl
  · rename_i o ho hvalue
    split
    · rename_i harg
      split
      · exact Or.inr (known_result (mem_of_findLong ho) harg)
      · exact Or.inl rfl
    · rename_i harg
      exact Or.inr (known_result (mem_of_findLong ho) (by simpa using harg))

/-- A call returns an option of the tables, or -1, or an error. -/
theorem call_known (hg : Ordered g) :
    (call optstring longs g).1 = .done ∨ (call optstring longs g).1 = .unknown ∨
      Known (optionsOf optstring) longs (call optstring longs g).1 := by
  cases hnext : g.nextchar with
  | cons c rest =>
      rw [call_char hg hnext]
      exact Or.inr (shortOption_known _ c rest g)
  | nil =>
      cases ha : g.argv[g.optind]? with
      | none =>
          rw [call_end hg hnext ha]
          exact Or.inl rfl
      | some a =>
          by_cases hdash : a = "--".toList
          · subst hdash
            rw [call_dashes hg hnext ha]
            exact Or.inl rfl
          · rw [call_element hg hnext ha hdash]
            split
            · exact Or.inl rfl
            · split
              · exact Or.inr (longOption_known _ _ g)
              · exact Or.inr (shortOption_known _ _ _ g)
              · exact Or.inr (Or.inl rfl)

end

end Getopt

end Cruntime
