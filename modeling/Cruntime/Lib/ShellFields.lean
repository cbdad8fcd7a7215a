/-
What the words of a command come to.

The lexer of `Lib/Shell.lean` keeps a word as it is written.  What the command gets is the
word without its quotes, its field.  Text that was meant to be a field and is put into a
line as it stands becomes that field only if it has nothing in it that means something to
the shell: quotes go away, everything else that is special ends the word or makes it a
pattern.

Two counts carry the proof.  Removing quotes never makes a word longer, and the words of a
line, each with the blank behind it, are never longer than the line.  So where the fields of
a line are the pieces it was put together from, no word can have lost anything.
-/
import Cruntime.Lib.Shell

namespace Cruntime

namespace Shell

/-! ### Quote removal -/

/-- What stays of a character when the quotes are removed. -/
def emits (q : Quoting) (c : Char) : CStr :=
  match q with
  | .plain => if c = '\x27' || c = '\x22' || c = '\\' then [] else [c]
  | .escape => [c]
  | .single => if c = '\x27' then [] else [c]
  | .double => if c = '\x22' || c = '\\' then [] else [c]
  | .doubleEscape => if c = '$' || c = '\x60' || c = '\x22' || c = '\\' then [c] else ['\\', c]

def unquoteFrom : Quoting → CStr → CStr
  | _, [] => []
  | q, c :: rest => ((quote q c).map fun q' => emits q c ++ unquoteFrom q' rest).getD []

/-- A word without its quotes. -/
def unquote (w : CStr) : CStr := unquoteFrom .plain w

/-- The fields of a line, if it is a simple command without redirections in which nothing is
expanded. -/
def fields (s : CStr) : Option (List CStr) :=
  (parse s).bind fun c => if c.redirects = [] then some (c.words.map unquote) else none

example : fields "rm -rf '/srv/a b'".toList = some (["rm", "-rf", "/srv/a b"].map String.toList) := by
  decide

/-- A backslash in double quotes that is not yet known to go away. -/
def pending : Quoting → Nat
  | .doubleEscape => 1
  | _ => 0

theorem emits_length_le {q q' : Quoting} {c : Char} (h : quote q c = some q') :
    (emits q c).length + pending q' ≤ 1 + pending q := by
  cases q with
  | plain =>
      simp only [quote] at h
      simp only [emits]
      split_ifs at h with h1 h2 h3 h4
      · obtain rfl := Option.some.inj h; simp [h1, pending]
      · obtain rfl := Option.some.inj h; simp [h2, pending]
      · obtain rfl := Option.some.inj h; simp [h3, pending]
      · obtain rfl := Option.some.inj h; simp [h1, h2, h3, pending]
  | escape =>
      simp only [quote] at h
      split_ifs at h
      obtain rfl := Option.some.inj h
      simp [emits, pending]
  | single =>
      simp only [quote] at h
      simp only [emits]
      split_ifs at h with h1
      · obtain rfl := Option.some.inj h; simp [h1, pending]
      · obtain rfl := Option.some.inj h; simp [h1, pending]
  | double =>
      simp only [quote] at h
      simp only [emits]
      split_ifs at h with h1 h2 h3
      · obtain rfl := Option.some.inj h; simp [h1, pending]
      · obtain rfl := Option.some.inj h; simp [h2, pending]
      · obtain rfl := Option.some.inj h; simp [h1, h2, pending]
  | doubleEscape =>
      simp only [quote] at h
      simp only [emits]
      split_ifs at h
      obtain rfl := Option.some.inj h
      split_ifs
      · simp [pending]
      · simp [pending]

theorem unquoteFrom_length_le (s : CStr) :
    ∀ q, (unquoteFrom q s).length ≤ s.length + pending q := by
  induction s with
  | nil => intro q; simp [unquoteFrom]
  | cons c rest ih =>
      intro q
      rw [unquoteFrom, List.length_cons]
      cases hq : quote q c with
      | none => simp
      | some q' =>
          have hemit := emits_length_le hq
          have hrest := ih q'
          simp only [Option.map_some, Option.getD_some, List.length_append]
          omega

/-- Removing quotes never makes a word longer. -/
theorem unquote_length_le (w : CStr) : (unquote w).length ≤ w.length := unquoteFrom_length_le w .plain

/-! ### The words of a line and its length -/

/-- The words of a line, each with the blank behind it. -/
def weight (ws : List CStr) : Nat := (ws.map fun w => w.length + 1).sum

theorem weight_cons (w : CStr) (ws : List CStr) : weight (w :: ws) = w.length + 1 + weight ws := by
  simp [weight]

theorem weight_append (ws ws' : List CStr) : weight (ws ++ ws') = weight ws + weight ws' := by
  simp [weight]

/-- The words among the tokens. -/
def wordsOf (ts : List Token) : List CStr :=
  ts.filterMap fun
    | .word w => some w
    | _ => none

/-- The text of a word that is not completed. -/
def LexState.openLength : LexState → Nat
  | .word _ text => text.length
  | _ => 0

theorem start_weight {c : Char} {r : List Token × LexState} (h : start c = some r) :
    wordsOf r.1 = [] ∧ r.2.openLength ≤ 1 := by
  unfold start at h
  split_ifs at h
  · obtain rfl := Option.some.inj h; simp [wordsOf, LexState.openLength]
  · obtain rfl := Option.some.inj h; simp [wordsOf, LexState.openLength]
  · obtain rfl := Option.some.inj h; simp [wordsOf, LexState.openLength]
  · obtain rfl := Option.some.inj h; simp [wordsOf, LexState.openLength]
  · obtain ⟨q, -, rfl⟩ := Option.map_eq_some_iff.mp h
    simp [wordsOf, LexState.openLength]

/-- A delimiter starts no word. -/
theorem start_delimits {c : Char} {r : List Token × LexState} (hc : delimits c = true)
    (h : start c = some r) : r.2.openLength = 0 := by
  unfold start at h
  split_ifs at h with h1 h2 h3 h4 h5
  · obtain rfl := Option.some.inj h; rfl
  · obtain rfl := Option.some.inj h; rfl
  · obtain rfl := Option.some.inj h; rfl
  · obtain rfl := Option.some.inj h; rfl
  · simp [delimits, h1, h2, h4] at hc

theorem weight_delimited (text : CStr) (c : Char) (ts : List Token) :
    weight (wordsOf (delimited text c :: ts)) ≤ text.length + 1 + weight (wordsOf ts) := by
  unfold delimited
  split_ifs
  · show weight (wordsOf ts) ≤ _
    omega
  · exact (weight_cons text (wordsOf ts)).le

/-- One character adds at most one to the words, the open one included. -/
theorem step_weight {st : LexState} {c : Char} {r : List Token × LexState}
    (h : step st c = some r) :
    weight (wordsOf r.1) + r.2.openLength ≤ st.openLength + 1 := by
  cases st with
  | gap =>
      obtain ⟨hnone, hopen⟩ := start_weight h
      rw [hnone]
      simpa [weight] using le_add_left hopen
  | comment =>
      simp only [step] at h
      split at h
      · obtain rfl := Option.some.inj h; simp [wordsOf, weight, LexState.openLength]
      · obtain rfl := Option.some.inj h; simp [wordsOf, weight, LexState.openLength]
  | op text =>
      simp only [step] at h
      split at h
      · obtain rfl := Option.some.inj h; simp [wordsOf, weight, LexState.openLength]
      · obtain ⟨r', hr', rfl⟩ := Option.map_eq_some_iff.mp h
        obtain ⟨hnone, hopen⟩ := start_weight hr'
        have hwords : wordsOf (.op text :: r'.1) = [] := hnone
        rw [hwords]
        simpa [weight] using le_add_left hopen
  | word q text =>
      simp only [step] at h
      split at h
      · rename_i hend
        obtain ⟨r', hr', rfl⟩ := Option.map_eq_some_iff.mp h
        have hopen := start_delimits hend.2 hr'
        have hwords := weight_delimited text c r'.1
        rw [(start_weight hr').1] at hwords
        show weight (wordsOf (delimited text c :: r'.1)) + r'.2.openLength ≤ text.length + 1
        rw [hopen]
        exact hwords
      · obtain ⟨q', -, rfl⟩ := Option.map_eq_some_iff.mp h
        simp [wordsOf, weight, LexState.openLength]

/-- **The words of a line are no longer than the line.** -/
theorem lexFrom_weight (s : CStr) :
    ∀ {st : LexState} {r : List Token × LexState}, lexFrom st s = some r →
      weight (wordsOf r.1) + r.2.openLength ≤ st.openLength + s.length := by
  induction s with
  | nil =>
      intro st r h
      obtain rfl := Option.some.inj h
      simp [wordsOf, weight]
  | cons c s ih =>
      intro st r h
      rw [lexFrom] at h
      obtain ⟨r', hr', hrest⟩ := Option.bind_eq_some_iff.mp h
      obtain ⟨r'', hr'', rfl⟩ := Option.map_eq_some_iff.mp hrest
      have hstep := step_weight hr'
      have hlex := ih hr''
      have hwords : wordsOf (r'.1 ++ r''.1) = wordsOf r'.1 ++ wordsOf r''.1 :=
        List.filterMap_append
      show weight (wordsOf (r'.1 ++ r''.1)) + r''.2.openLength ≤ _
      rw [hwords, weight_append, List.length_cons]
      omega

theorem weight_parseTokens_le {ts : List Token} {c : SimpleCommand}
    (h : parseTokens ts = some c) : weight c.words ≤ weight (wordsOf ts) := by
  have hwords : wordsOf (c.words.map Token.word) = c.words := by
    unfold wordsOf
    rw [List.filterMap_map]
    exact List.filterMap_some
  have hsub : c.words.Sublist (wordsOf ts) := by
    have hfilter : (wordsOf (c.words.map Token.word)).Sublist (wordsOf ts) :=
      (words_sublist_of_parseTokens h).filterMap _
    rwa [hwords] at hfilter
  exact (hsub.map _).sum_le_sum fun _ _ => Nat.zero_le _

theorem weight_parse_le {s : CStr} {c : SimpleCommand} (h : parse s = some c) :
    weight c.words ≤ s.length + 1 := by
  obtain ⟨ts, hlex, hparse⟩ := Option.bind_eq_some_iff.mp h
  obtain ⟨r, hr, hend⟩ := Option.bind_eq_some_iff.mp hlex
  split_ifs at hend
  · obtain rfl := Option.some.inj hend
    have hwords := weight_parseTokens_le hparse
    have hline := lexFrom_weight _ hr
    rw [List.length_append, List.length_singleton] at hline
    have hzero : LexState.gap.openLength = 0 := rfl
    omega

theorem unwords_length {ws : List CStr} (hne : ws ≠ []) :
    (unwords ws).length + 1 = weight ws := by
  cases ws with
  | nil => exact absurd rfl hne
  | cons w ws =>
      have hrest : (ws.flatMap fun v => ' ' :: v).length = weight ws := by
        unfold weight
        rw [List.length_flatMap]
        rfl
      rw [weight_cons, unwords, List.length_append, hrest]
      omega

/-! ### Words that stand for themselves -/

/-- A quote in an unquoted word is lost, and nothing makes up for it. -/
theorem quote_of_length {c : Char} {v : CStr} {q : Quoting} (hq : quote .plain c = some q)
    (h : (c :: v).length ≤ (unquoteFrom .plain (c :: v)).length) :
    q = .plain ∧ v.length ≤ (unquoteFrom .plain v).length := by
  rw [unquoteFrom, hq, List.length_cons, Option.map_some, Option.getD_some,
    List.length_append] at h
  have hquote : q = .plain := by
    by_contra hne
    have hlost : emits .plain c = [] ∧ pending q = 0 := by
      simp only [quote] at hq
      simp only [emits]
      split_ifs at hq with h1 h2 h3 h4
      · obtain rfl := Option.some.inj hq; simp [h1, pending]
      · obtain rfl := Option.some.inj hq; simp [h2, pending]
      · obtain rfl := Option.some.inj hq; simp [h3, pending]
      · exact absurd (Option.some.inj hq).symm hne
    have hshort := unquoteFrom_length_le v q
    rw [hlost.1, List.length_nil] at h
    omega
  subst hquote
  have hemit := emits_length_le hq
  exact ⟨rfl, by omega⟩

/-- In an unquoted word that loses nothing, every character goes on with it. -/
theorem continues_of_length (v : CStr) :
    ∀ acc, lexFrom (.word .plain acc) v = some ([], .word .plain (acc ++ v)) →
      v.length ≤ (unquoteFrom .plain v).length → ∀ c ∈ v, continues c = true := by
  induction v with
  | nil => intro acc _ _ c hc; simp at hc
  | cons d v ih =>
      intro acc hlex hlen c hc
      rw [lexFrom] at hlex
      obtain ⟨r, hstep, hrest⟩ := Option.bind_eq_some_iff.mp hlex
      obtain ⟨r', hr', heq⟩ := Option.map_eq_some_iff.mp hrest
      have hnone : r.1 = [] ∧ r'.1 = [] := List.append_eq_nil_iff.mp (congrArg Prod.fst heq)
      have hend : r'.2 = .word .plain (acc ++ d :: v) := congrArg Prod.snd heq
      simp only [step] at hstep
      by_cases hdelim : delimits d = true
      · -- a delimiter would have completed the word
        rw [if_pos ⟨trivial, hdelim⟩] at hstep
        obtain ⟨x, -, rfl⟩ := Option.map_eq_some_iff.mp hstep
        simp at hnone
      · rw [if_neg (by simp [hdelim])] at hstep
        obtain ⟨q, hq, rfl⟩ := Option.map_eq_some_iff.mp hstep
        obtain ⟨rfl, hlen'⟩ := quote_of_length hq hlen
        rcases List.mem_cons.mp hc with rfl | hc
        · simp [continues, hdelim, hq]
        · refine ih (acc ++ [d]) ?_ hlen' c hc
          rw [hr', List.append_assoc]
          exact congrArg some (Prod.ext hnone.2 hend)

/-- A character that starts a word. -/
theorem start_word {c : Char} {q : Quoting} {text : CStr}
    (h : start c = some ([], .word q text)) :
    delimits c = false ∧ quote .plain c = some q ∧ text = [c] := by
  unfold start at h
  split_ifs at h with h1 h2 h3 h4 h5
  · simp at h
  · simp at h
  · simp at h
  · simp at h
  · obtain ⟨q', hq', heq⟩ := Option.map_eq_some_iff.mp h
    obtain ⟨rfl, rfl⟩ : q' = q ∧ [c] = text := by simpa using heq
    exact ⟨by simp [delimits, h1, h2, h4], hq', rfl⟩

/-- A word that loses nothing is made of characters that mean nothing to the shell. -/
theorem continues_of_isWord {w : CStr} (hw : IsWord w) (h : w.length ≤ (unquote w).length) :
    ∀ c ∈ w, continues c = true := by
  cases w with
  | nil => intro c hc; simp at hc
  | cons c v =>
      have hlex := hw
      unfold IsWord at hlex
      rw [lexFrom] at hlex
      obtain ⟨⟨ts, st⟩, hstart, hrest⟩ := Option.bind_eq_some_iff.mp hlex
      obtain ⟨r, hr, heq⟩ := Option.map_eq_some_iff.mp hrest
      have hnone : ts = [] ∧ r.1 = [] := List.append_eq_nil_iff.mp (congrArg Prod.fst heq)
      have hend : r.2 = .word .plain (c :: v) := congrArg Prod.snd heq
      obtain ⟨rfl, hr1⟩ := hnone
      -- the characters behind the first one are too few to make up the whole word
      have hopen : st.openLength ≠ 0 := by
        have hline := lexFrom_weight _ hr
        rw [hend] at hline
        change _ + (c :: v).length ≤ st.openLength + v.length at hline
        rw [List.length_cons] at hline
        omega
      cases st with
      | gap => exact absurd rfl hopen
      | comment => exact absurd rfl hopen
      | op text => exact absurd rfl hopen
      | word q text =>
          obtain ⟨hdelim, hq, rfl⟩ := start_word hstart
          obtain ⟨rfl, hlen⟩ := quote_of_length hq h
          have hrest := continues_of_length v [c] (hr.trans (congrArg some (Prod.ext hr1 hend))) hlen
          intro d hd
          rcases List.mem_cons.mp hd with rfl | hd
          · simp [continues, hdelim, hq]
          · exact hrest d hd

/-- Characters that mean nothing to the shell stay. -/
theorem unquoteFrom_continues {v : CStr} (h : ∀ c ∈ v, continues c = true) :
    unquoteFrom .plain v = v := by
  induction v with
  | nil => rfl
  | cons c v ih =>
      have hc := h c (by simp)
      simp only [continues, Bool.and_eq_true, decide_eq_true_eq] at hc
      have hemit : emits .plain c = [c] := by
        have hq := hc.2
        simp only [quote] at hq
        simp only [emits]
        split_ifs at hq with h1 h2 h3
        all_goals simp_all
      rw [unquoteFrom, hc.2, hemit, Option.map_some, Option.getD_some,
        ih fun d hd => h d (by simp [hd])]
      rfl

/-! ### Lines put together from fields -/

theorem eq_of_sum_le {α : Type} {f g : α → Nat} {l : List α} (hle : ∀ a ∈ l, f a ≤ g a)
    (hsum : (l.map g).sum ≤ (l.map f).sum) : ∀ a ∈ l, f a = g a := by
  induction l with
  | nil => intro a ha; simp at ha
  | cons b rest ih =>
      have hb := hle b (by simp)
      have hrest : (rest.map f).sum ≤ (rest.map g).sum :=
        List.sum_le_sum fun a ha => hle a (by simp [ha])
      rw [List.map_cons, List.map_cons, List.sum_cons, List.sum_cons] at hsum
      intro a ha
      rcases List.mem_cons.mp ha with rfl | ha
      · omega
      · exact ih (fun a ha => hle a (by simp [ha])) (by omega) a ha

theorem fields_eq_some {s : CStr} {vs : List CStr} (h : fields s = some vs) :
    ∃ ws, parse s = some ⟨ws, []⟩ ∧ vs = ws.map unquote := by
  obtain ⟨c, hparse, hc⟩ := Option.bind_eq_some_iff.mp h
  split_ifs at hc with hredir
  · obtain ⟨words, redirects⟩ := c
    obtain rfl : redirects = [] := hredir
    exact ⟨words, hparse, (Option.some.inj hc).symm⟩

/-- Characters that mean nothing to the shell, of which the first can start a word. -/
def Literal (w : CStr) : Prop := IsWord w ∧ ∀ c ∈ w, continues c = true

instance (w : CStr) : Decidable (Literal w) :=
  decidable_of_iff (IsWord w ∧ w.all continues = true) (and_congr_right fun _ => List.all_eq_true)

theorem literal_cons_iff {c : Char} {v : CStr} (hword : IsWord [c]) (hc : continues c = true) :
    Literal (c :: v) ↔ ∀ d ∈ v, continues d = true := by
  constructor
  · intro h d hd
    exact h.2 d (by simp [hd])
  · intro h
    refine ⟨isWord_of_continues hword h, fun d hd => ?_⟩
    rcases List.mem_cons.mp hd with rfl | hd
    · exact hc
    · exact h d hd

/-- **A line of words has these words for fields exactly when each of them stands for itself.** -/
theorem fields_unwords_iff {ws : List CStr} (hne : ws ≠ []) :
    fields (unwords ws) = some ws ↔ ∀ w ∈ ws, Literal w := by
  have hline := unwords_length hne
  constructor
  · intro h
    obtain ⟨us, hparse, hus⟩ := fields_eq_some h
    have hsame : ∀ u ∈ us, (unquote u).length + 1 = u.length + 1 := by
      have hle := weight_parse_le hparse
      rw [hline, hus] at hle
      unfold weight at hle
      rw [List.map_map] at hle
      exact eq_of_sum_le (fun u _ => Nat.succ_le_succ (unquote_length_le u)) hle
    have hplain : ∀ u ∈ us, ∀ c ∈ u, continues c = true := by
      intro u hu
      have hlen := hsame u hu
      exact continues_of_isWord (isWord_of_parse hparse u hu) (by omega)
    intro w hw
    rw [hus] at hw
    obtain ⟨u, hu, rfl⟩ := List.mem_map.mp hw
    have hself : unquote u = u := unquoteFrom_continues (hplain u hu)
    rw [hself]
    exact ⟨isWord_of_parse hparse u hu, hplain u hu⟩
  · intro h
    have hparse : parse (unwords ws ++ []) = some ⟨ws, []⟩ :=
      (@parse_unwords_iff ws hne [] [] [] [] rfl rfl rfl).mpr
        fun w hw => (h w hw).1
    rw [List.append_nil] at hparse
    unfold fields
    rw [hparse, Option.bind_some, if_pos rfl]
    have hself : ws.map unquote = ws := by
      conv_rhs => rw [← List.map_id ws]
      exact List.map_congr_left fun w hw => unquoteFrom_continues (h w hw).2
    rw [hself]

end Shell

end Cruntime
