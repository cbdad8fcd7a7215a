/-
Loops over the options of a vector.

What the calls of a loop return does not depend on what the loop does with it, so a loop
is its body run over one list, the `scan` of the vector.  A scan comes to an end, since
every call leaves less to read.
-/
import Cruntime.Lib.Getopt

namespace Cruntime

namespace Getopt

/-- The words that follow the element being read. -/
def State.ahead (g : State) : List CStr :=
  g.argv.drop (if g.nextchar = [] then g.optind else g.optind + 1)

/-- The size of some words: their characters, and one for each. -/
def size (words : List CStr) : Nat := (words.map fun a => a.length + 1).sum

/-- What is left to read, as a bound on the calls to come. -/
def State.remaining (g : State) : Nat := g.nextchar.length + size g.ahead

/-- The options of the vector: what the calls return up to -1 and the state they leave, or up to
the first error. -/
def scan (optstring : CStr) (longs : List LongOption) :
    Nat → State → Option (List Result × Option State)
  | 0, _ => none
  | n + 1, g =>
      match call optstring longs g with
      | (.done, g') => some ([], some g')
      | (.unknown, _) => some ([], none)
      | (r, g') => (scan optstring longs n g').map fun x => (r :: x.1, x.2)

section

variable {optstring : CStr} {longs : List LongOption} {g : State}

/-! ### Every call leaves less to read -/

theorem size_drop_le (l : List CStr) (k : Nat) : size (l.drop (k + 1)) ≤ size (l.drop k) := by
  cases h : l.drop k with
  | nil =>
      rw [List.drop_eq_nil_iff] at h
      rw [List.drop_eq_nil_iff.mpr (by omega)]
  | cons a rest =>
      rw [← List.drop_drop, h, List.drop_one, List.tail_cons]
      simp [size]

theorem size_drop_eq {l : List CStr} {k : Nat} {a : CStr} (h : l[k]? = some a) :
    size (l.drop k) = a.length + 1 + size (l.drop (k + 1)) := by
  obtain ⟨hk, rfl⟩ := List.getElem?_eq_some_iff.mp h
  rw [List.drop_eq_getElem_cons hk]
  simp only [size, List.map_cons, List.sum_cons]

/-- The state after an option was read: the place has moved on, and the rest is as it was. -/
structure MovedOn (g g' : State) : Prop where
  argv : g'.argv = g.argv
  initialized : g'.initialized = g.initialized
  order : g'.order = g.order
  first : g'.firstNonopt = g.firstNonopt
  last : g'.lastNonopt = g.lastNonopt
  optind : g.optind ≤ g'.optind

theorem MovedOn.ordered {g' : State} (h : MovedOn g g') (hg : Ordered g) : Ordered g' := by
  refine ⟨h.initialized.trans hg.initialized, h.order.trans hg.order,
    Nat.lt_of_lt_of_le hg.pos h.optind, ?_, ?_⟩
  · rw [h.first]
    exact hg.first.trans h.optind
  · rw [h.last]
    exact hg.last.trans h.optind

theorem MovedOn.trans {g' g'' : State} (h : MovedOn g g') (h' : MovedOn g' g'') : MovedOn g g'' :=
  ⟨h'.argv.trans h.argv, h'.initialized.trans h.initialized, h'.order.trans h.order,
    h'.first.trans h.first, h'.last.trans h.last, h.optind.trans h'.optind⟩

theorem movedOn_to (g : State) (nextchar : CStr) {optind : Nat} (h : g.optind ≤ optind) :
    MovedOn g { g with nextchar := nextchar, optind := optind } :=
  ⟨rfl, rfl, rfl, rfl, rfl, h⟩

/-- A short option moves on, and reads at least its character. -/
theorem shortOption_movedOn (options : CStr) (c : Char) (rest : CStr) (g : State) :
    MovedOn g (shortOption options c rest g).2 ∧
      (shortOption options c rest g).2.remaining ≤ rest.length + size (g.argv.drop (g.optind + 1)) := by
  unfold shortOption
  dsimp only
  have hle := size_drop_le g.argv (g.optind + 1)
  have hlast : MovedOn g { g with
        nextchar := rest, optind := if rest = [] then g.optind + 1 else g.optind } ∧
      State.remaining { g with
        nextchar := rest, optind := if rest = [] then g.optind + 1 else g.optind } ≤
          rest.length + size (g.argv.drop (g.optind + 1)) := by
    refine ⟨movedOn_to g rest (by split <;> omega), ?_⟩
    unfold State.remaining State.ahead
    by_cases hrest : rest = [] <;> simp [hrest]
  split
  · exact hlast
  · exact hlast
  · by_cases hrest : rest = []
    · subst hrest
      simp only [ne_eq, not_true_eq_false, if_false, if_true]
      split
      · refine ⟨movedOn_to g [] (by omega), ?_⟩
        simpa [State.remaining, State.ahead] using hle
      · refine ⟨movedOn_to g [] (by omega), ?_⟩
        simp [State.remaining, State.ahead]
    · simp only [ne_eq, hrest, not_false_eq_true, if_true, if_false]
      refine ⟨movedOn_to g [] (by omega), ?_⟩
      simp [State.remaining, State.ahead]

/-- A long option moves on past its element. -/
theorem longOption_movedOn (longs : List LongOption) (text : CStr) (g : State) :
    MovedOn g (longOption longs text g).2 ∧
      (longOption longs text g).2.remaining ≤ size (g.argv.drop (g.optind + 1)) := by
  have hle := size_drop_le g.argv (g.optind + 1)
  have hone : MovedOn g { g with nextchar := [], optind := g.optind + 1 } ∧
      State.remaining { g with nextchar := [], optind := g.optind + 1 } ≤
        size (g.argv.drop (g.optind + 1)) := by
    refine ⟨movedOn_to g [] (by omega), ?_⟩
    simp [State.remaining, State.ahead]
  unfold longOption
  dsimp only
  split
  · exact hone
  · split
    · exact hone
    · exact hone
  · split
    · split
      · refine ⟨movedOn_to g [] (by omega), ?_⟩
        simpa [State.remaining, State.ahead] using hle
      · exact hone
    · exact hone

/-- **A call that reads an option** moves on, and there is less left to read. -/
theorem call_movedOn (hg : Ordered g) {r : Result} {g' : State}
    (h : call optstring longs g = (r, g')) (hr : r ≠ .done) :
    MovedOn g g' ∧ (r ≠ .unknown → g'.remaining < g.remaining) := by
  obtain rfl : (call optstring longs g).1 = r := by rw [h]
  obtain rfl : (call optstring longs g).2 = g' := by rw [h]
  clear h
  cases hnext : g.nextchar with
  | cons c rest =>
      rw [call_char hg hnext]
      obtain ⟨hmoved, hsize⟩ := shortOption_movedOn (optionsOf optstring) c rest g
      refine ⟨hmoved, fun _ => Nat.lt_of_le_of_lt hsize ?_⟩
      simp [State.remaining, State.ahead, hnext]
  | nil =>
      cases ha : g.argv[g.optind]? with
      | none =>
          rw [call_end hg hnext ha] at hr
          exact absurd rfl hr
      | some a =>
          have hleft : g.remaining = a.length + 1 + size (g.argv.drop (g.optind + 1)) := by
            rw [← size_drop_eq ha]
            simp [State.remaining, State.ahead, hnext]
          by_cases hdash : a = "--".toList
          · subst hdash
            rw [call_dashes hg hnext ha] at hr
            exact absurd rfl hr
          · rw [call_element hg hnext ha hdash] at hr ⊢
            by_cases hop : isOperand a = true
            · rw [if_pos hop] at hr
              exact absurd rfl hr
            · rw [if_neg hop] at hr ⊢
              split at hr
              · rename_i text
                obtain ⟨hmoved, hsize⟩ := longOption_movedOn longs text g
                refine ⟨hmoved, fun _ => Nat.lt_of_le_of_lt hsize ?_⟩
                omega
              · rename_i c rest _
                obtain ⟨hmoved, hsize⟩ := shortOption_movedOn (optionsOf optstring) c rest g
                refine ⟨hmoved, fun _ => Nat.lt_of_le_of_lt hsize ?_⟩
                rw [hleft]
                simp only [List.length_cons]
                omega
              · exact ⟨⟨rfl, rfl, rfl, rfl, rfl, le_rfl⟩, fun hne => absurd rfl hne⟩

/-! ### Scans -/

/-- A call that reads an option leaves the rest to the next ones. -/
theorem scan_succ {n : Nat} {r : Result} {g' : State} (h : call optstring longs g = (r, g'))
    (hdone : r ≠ .done) (hunknown : r ≠ .unknown) :
    scan optstring longs (n + 1) g
      = (scan optstring longs n g').map fun x => (r :: x.1, x.2) := by
  unfold scan
  rw [h]
  cases r with
  | done => exact absurd rfl hdone
  | unknown => exact absurd rfl hunknown
  | _ => cases n <;> rfl

theorem scan_done {n : Nat} {g' : State} (h : call optstring longs g = (.done, g')) :
    scan optstring longs (n + 1) g = some ([], some g') := by
  unfold scan
  rw [h]

theorem scan_unknown {n : Nat} {g' : State} (h : call optstring longs g = (.unknown, g')) :
    scan optstring longs (n + 1) g = some ([], none) := by
  unfold scan
  rw [h]

/-- **Scanning comes to an end.** -/
theorem scan_isSome : ∀ (n : Nat) {g : State}, Ordered g → g.remaining < n →
    ∃ x, scan optstring longs n g = some x := by
  intro n
  induction n with
  | zero => intro g _ h; omega
  | succ n ih =>
      intro g hg hn
      cases hcall : call optstring longs g with
      | mk r g' =>
          by_cases hdone : r = .done
          · subst hdone
            exact ⟨_, scan_done hcall⟩
          by_cases hunknown : r = .unknown
          · subst hunknown
            exact ⟨_, scan_unknown hcall⟩
          obtain ⟨hmoved, hless⟩ := call_movedOn hg hcall hdone
          obtain ⟨x, hx⟩ := ih (hmoved.ordered hg) (by have := hless hunknown; omega)
          exact ⟨_, by rw [scan_succ hcall hdone hunknown, hx]; rfl⟩

/-- More fuel makes no difference. -/
theorem scan_mono : ∀ (n k : Nat) {g : State} {x : List Result × Option State},
    scan optstring longs n g = some x → scan optstring longs (n + k) g = some x := by
  intro n
  induction n with
  | zero => intro k g x h; simp [scan] at h
  | succ n ih =>
      intro k g x h
      rw [Nat.add_right_comm]
      cases hcall : call optstring longs g with
      | mk r g' =>
          by_cases hdone : r = .done
          · subst hdone
            rw [scan_done hcall] at h ⊢
            exact h
          by_cases hunknown : r = .unknown
          · subst hunknown
            rw [scan_unknown hcall] at h ⊢
            exact h
          rw [scan_succ hcall hdone hunknown] at h ⊢
          obtain ⟨y, hy, rfl⟩ := Option.map_eq_some_iff.mp h
          rw [ih k hy]
          rfl

theorem scan_unique {n m : Nat} {x y : List Result × Option State}
    (hx : scan optstring longs n g = some x) (hy : scan optstring longs m g = some y) : x = y := by
  have hx' := scan_mono n m hx
  rw [Nat.add_comm, scan_mono m n hy] at hx'
  exact (Option.some.inj hx').symm

/-- What a loop over the options comes to, in terms of the options; `bad` is how its body leaves
at an error. -/
def outcome {σ ρ : Type} (body : σ → Result → Except ρ σ) (bad : ρ) (s : σ) :
    List Result × Option State → Except ρ (σ × State)
  | (results, stop) =>
      match results.foldlM body s, stop with
      | .error e, _ => .error e
      | .ok s', some g => .ok (s', g)
      | .ok _, none => .error bad

theorem outcome_error {σ ρ : Type} {body : σ → Result → Except ρ σ} {bad e : ρ} {s : σ}
    {results : List Result} {stop : Option State} (h : results.foldlM body s = .error e) :
    outcome body bad s (results, stop) = .error e := by
  simp only [outcome, h]

theorem outcome_ok {σ ρ : Type} {body : σ → Result → Except ρ σ} {bad : ρ} {s s' : σ}
    {results : List Result} {g : State} (h : results.foldlM body s = .ok s') :
    outcome body bad s (results, some g) = .ok (s', g) := by
  simp only [outcome, h]

theorem outcome_bad {σ ρ : Type} {body : σ → Result → Except ρ σ} {bad : ρ} {s s' : σ}
    {results : List Result} (h : results.foldlM body s = .ok s') :
    outcome body bad s (results, none) = .error bad := by
  simp only [outcome, h]

/-- **A loop whose body leaves at an error** runs its body over the options of the vector. -/
theorem loop_eq {σ ρ : Type} {body : σ → Result → Except ρ σ} {bad : ρ}
    (hbody : ∀ s, body s .unknown = .error bad) :
    ∀ (n : Nat) {g : State} (s : σ) {x : List Result × Option State},
      scan optstring longs n g = some x →
      loop optstring longs body n g s = some (outcome body bad s x) := by
  intro n
  induction n with
  | zero => intro g s x h; simp [scan] at h
  | succ n ih =>
      intro g s x h
      unfold loop
      cases hcall : call optstring longs g with
      | mk r g' =>
          by_cases hdone : r = .done
          · subst hdone
            rw [scan_done hcall] at h
            obtain rfl := Option.some.inj h
            rfl
          by_cases hunknown : r = .unknown
          · subst hunknown
            rw [scan_unknown hcall] at h
            obtain rfl := Option.some.inj h
            simp [outcome, hbody, pure, Except.pure]
          rw [scan_succ hcall hdone hunknown] at h
          obtain ⟨⟨results, stop⟩, hscan, rfl⟩ := Option.map_eq_some_iff.mp h
          cases hs : body s r with
          | error e =>
              cases r with
              | done => exact absurd rfl hdone
              | unknown => exact absurd rfl hunknown
              | _ => simp [outcome, hs, bind, Except.bind]
          | ok s' =>
              have hrest := ih s' hscan
              cases r with
              | done => exact absurd rfl hdone
              | unknown => exact absurd rfl hunknown
              | _ => simpa [outcome, hs, bind, Except.bind] using hrest

/-- **The options of a scan** are options of the tables. -/
theorem scan_known : ∀ (n : Nat) {g : State} {x : List Result × Option State}, Ordered g →
    scan optstring longs n g = some x → ∀ r ∈ x.1, Known (optionsOf optstring) longs r := by
  intro n
  induction n with
  | zero => intro g x _ h; simp [scan] at h
  | succ n ih =>
      intro g x hg h
      cases hcall : call optstring longs g with
      | mk r g' =>
          have hr : (call optstring longs g).1 = r := by rw [hcall]
          by_cases hdone : r = .done
          · subst hdone
            rw [scan_done hcall] at h
            obtain rfl := Option.some.inj h
            simp
          by_cases hunknown : r = .unknown
          · subst hunknown
            rw [scan_unknown hcall] at h
            obtain rfl := Option.some.inj h
            simp
          rw [scan_succ hcall hdone hunknown] at h
          obtain ⟨y, hy, rfl⟩ := Option.map_eq_some_iff.mp h
          intro r' hr'
          rcases List.mem_cons.mp hr' with rfl | hr'
          · rcases @call_known optstring longs _ hg with h | h | h
            · exact absurd (hr.symm.trans h) hdone
            · exact absurd (hr.symm.trans h) hunknown
            · rwa [hr] at h
          · exact ih ((call_movedOn hg hcall hdone).1.ordered hg) hy r' hr'

/-! ### Where a scan starts -/

/-- Between two loops: the order is settled, and no element is being read. -/
structure Settled (g : State) : Prop where
  initialized : g.initialized = true
  order : g.order = .requireOrder
  pos : 0 < g.optind
  nextchar : g.nextchar = []

theorem Settled.ordered_clamp (hg : Settled g) : Ordered g.clamp :=
  ⟨hg.initialized, hg.order, hg.pos, Nat.min_le_right _ _, Nat.min_le_right _ _⟩

theorem skipDashes_settled (hg : Ordered g) (hfirst : 0 < g.firstNonopt) (hnext : g.nextchar = []) :
    Settled (if g.skipDashes.firstNonopt ≠ g.skipDashes.lastNonopt then
      { g.skipDashes with optind := g.skipDashes.firstNonopt } else g.skipDashes) := by
  have hpos : 0 < g.skipDashes.firstNonopt := by
    unfold State.skipDashes State.exchange
    dsimp only
    split_ifs
    · exact Nat.add_pos_left hfirst _
    · exact Nat.succ_pos _
    · exact hfirst
  have hrest : g.skipDashes.initialized = true ∧ g.skipDashes.order = .requireOrder ∧
      g.skipDashes.nextchar = [] := by
    unfold State.skipDashes State.exchange
    dsimp only
    split_ifs
    all_goals exact ⟨hg.initialized, hg.order, hnext⟩
  obtain ⟨hinit, horder, hchar⟩ := hrest
  split_ifs with hrange
  · exact ⟨hinit, horder, hpos, hchar⟩
  · -- the place is the end of the range, which is its start
    have hplace : g.skipDashes.optind = g.skipDashes.lastNonopt := rfl
    exact ⟨hinit, horder, by rw [hplace]; omega, hchar⟩

/-- After -1 the parser is settled. -/
theorem call_settled (hg : Ordered g) (hfirst : 0 < g.firstNonopt) {g' : State}
    (h : call optstring longs g = (.done, g')) : Settled g' := by
  cases hnext : g.nextchar with
  | cons c rest =>
      rw [call_char hg hnext] at h
      have hknown := @shortOption_known longs (optionsOf optstring) c rest g
      rw [h] at hknown
      simp [Known] at hknown
  | nil =>
      cases ha : g.argv[g.optind]? with
      | none =>
          rw [call_end hg hnext ha] at h
          obtain rfl := (Prod.mk.inj h).2
          split_ifs
          · exact ⟨hg.initialized, hg.order, hfirst, hnext⟩
          · exact ⟨hg.initialized, hg.order, hg.pos, hnext⟩
      | some a =>
          by_cases hdash : a = "--".toList
          · subst hdash
            rw [call_dashes hg hnext ha] at h
            obtain rfl := (Prod.mk.inj h).2
            exact skipDashes_settled hg hfirst hnext
          · rw [call_element hg hnext ha hdash] at h
            split at h
            · obtain rfl := (Prod.mk.inj h).2
              exact ⟨hg.initialized, hg.order, hg.pos, hnext⟩
            · exfalso
              split at h
              · have hknown := @longOption_known longs (optionsOf optstring) ‹_› g
                rw [h] at hknown
                simp [Known] at hknown
              · have hknown := @shortOption_known longs (optionsOf optstring) ‹_› ‹_› g
                rw [h] at hknown
                simp [Known] at hknown
              · simp at h

/-- **A loop that comes to its end leaves the parser settled.** -/
theorem scan_settled : ∀ (n : Nat) {g g' : State} {rs : List Result}, Ordered g →
    0 < g.firstNonopt → scan optstring longs n g = some (rs, some g') → Settled g' := by
  intro n
  induction n with
  | zero => intro g g' rs _ _ h; simp [scan] at h
  | succ n ih =>
      intro g g' rs hg hfirst h
      obtain ⟨r, next, hcall⟩ : ∃ r next, call optstring longs g = (r, next) := ⟨_, _, rfl⟩
      by_cases hdone : r = .done
      · subst hdone
        rw [scan_done hcall] at h
        obtain rfl := Option.some.inj (Prod.mk.inj (Option.some.inj h)).2
        exact call_settled hg hfirst hcall
      by_cases hunknown : r = .unknown
      · subst hunknown
        rw [scan_unknown hcall] at h
        simp at h
      rw [scan_succ hcall hdone hunknown] at h
      obtain ⟨y, hy, hmap⟩ := Option.map_eq_some_iff.mp h
      obtain ⟨hmoved, -⟩ := call_movedOn hg hcall hdone
      have hy' : scan optstring longs n next = some (y.1, some g') := by
        rw [hy, ← (Prod.mk.inj hmap).2]
      exact ih (hmoved.ordered hg) (by rw [hmoved.first]; exact hfirst) hy'

/-- The first call of a loop moves the range of operands back to where it can be. -/
theorem scan_clamp (hg : Settled g) (n : Nat) :
    scan optstring longs n g.clamp = scan optstring longs n g := by
  have hinit : g.init optstring = g := init_eq_self hg.initialized hg.pos
  have hclamp : g.clamp.clamp = g.clamp := by
    simp [State.clamp]
  cases n with
  | zero => rfl
  | succ n =>
      have hcall : call optstring longs g.clamp = call optstring longs g := by
        unfold call
        simp only [hg.ordered_clamp.init_eq, hinit, hclamp,
          show g.clamp.nextchar = [] from hg.nextchar, hg.nextchar]
      unfold scan
      rw [hcall]

/-- The state the first call of the process works in, when it asks to stop at operands. -/
theorem ordered_fresh (argv : List CStr) (options : CStr) :
    Ordered ((State.fresh argv).init ('+' :: options)) :=
  ⟨rfl, rfl, Nat.one_pos, le_rfl, le_rfl⟩

/-- The first call sets the state up, and later ones find it set up. -/
theorem scan_init (n : Nat) (g : State) :
    scan optstring longs n (g.init optstring) = scan optstring longs n g := by
  have hset : ¬((g.init optstring).optind = 0 ∨ (g.init optstring).initialized = false) := by
    unfold State.init
    split_ifs with h hzero
    · simp
    · simpa using hzero
    · exact h
  have hinit : (g.init optstring).init optstring = g.init optstring := by
    conv_lhs => unfold State.init
    exact if_neg hset
  cases n with
  | zero => rfl
  | succ n =>
      have hcall : call optstring longs (g.init optstring) = call optstring longs g := by
        unfold call
        rw [hinit]
      unfold scan
      rw [hcall]

end

end Getopt

end Cruntime
