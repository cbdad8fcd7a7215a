/-
The kernel's network devices.

A link lives in a network namespace under a name, and a name is taken at most once
there, so the table is a function from locations to links.  The two ends of a veth
pair point at each other; that is the one invariant of the table, and it is a field
of `LinkTable`, so no operation can lose it.

Every operation is partial: it answers `none` exactly where `ip` exits with an
error because of the state of the table.  One lemma for each says when that is and
what the table then holds at every location.
-/
import Cruntime.Lib.CText

namespace Cruntime

/-- A network namespace: the host's, or one a container process was started in. -/
inductive NetNs where
  | host
  | proc (inode : Nat)
deriving DecidableEq

/-- A link name within a namespace. -/
structure Loc where
  ns : NetNs
  name : CStr
deriving DecidableEq

/-- What a link is; a veth end knows where its peer is. -/
inductive LinkKind where
  | bridge
  | veth (peer : Loc)
  | other
deriving DecidableEq

/-- What `ip link set` and `ip addr add` change about a link. -/
structure Dev where
  master : Option CStr
  up : Bool
  addrs : List CStr
deriving DecidableEq

/-- A device as it is created, and as it arrives in another namespace. -/
def Dev.fresh : Dev := ⟨none, false, []⟩

structure Link where
  kind : LinkKind
  dev : Dev
deriving DecidableEq

/-- The links of all namespaces. -/
structure LinkTable where
  lookup : Loc → Option Link
  /-- The ends of a veth pair are two links that point at each other. -/
  peered : ∀ {a b : Loc} {l : Link}, lookup a = some l → l.kind = .veth b →
    a ≠ b ∧ ∃ l', lookup b = some l' ∧ l'.kind = .veth a

namespace LinkTable

theorem ext {t t' : LinkTable} (h : ∀ x, t.lookup x = t'.lookup x) : t = t' := by
  cases t
  cases t'
  simpa using funext h

/-- The kind of the link at a location. -/
def kindAt (t : LinkTable) (a : Loc) : Option LinkKind := (t.lookup a).map (·.kind)

theorem kindAt_eq_some {t : LinkTable} {a : Loc} {k : LinkKind} :
    t.kindAt a = some k ↔ ∃ l, t.lookup a = some l ∧ l.kind = k := by
  simp [kindAt]

/-- The location of the other end of a veth pair. -/
def peerOf (t : LinkTable) (a : Loc) : Option Loc :=
  match t.kindAt a with
  | some (.veth b) => some b
  | _ => none

theorem peerOf_eq_some {t : LinkTable} {a b : Loc} :
    t.peerOf a = some b ↔ t.kindAt a = some (.veth b) := by
  unfold peerOf
  split
  · rename_i c hc
    simp [hc]
  · rename_i hno
    simpa using hno b

theorem kindAt_peer {t : LinkTable} {a b : Loc} (h : t.kindAt a = some (.veth b)) :
    a ≠ b ∧ t.kindAt b = some (.veth a) := by
  obtain ⟨l, hl, hk⟩ := kindAt_eq_some.mp h
  obtain ⟨hne, l', hl', hk'⟩ := t.peered hl hk
  exact ⟨hne, kindAt_eq_some.mpr ⟨l', hl', hk'⟩⟩

theorem kindAt_none {t : LinkTable} {a : Loc} : t.kindAt a = none ↔ t.lookup a = none := by
  simp [kindAt]

/-- What has a kind is there. -/
theorem lookup_ne_none {t : LinkTable} {a : Loc} {k : LinkKind} (h : t.kindAt a = some k) :
    t.lookup a ≠ none := by
  obtain ⟨l, hl, -⟩ := kindAt_eq_some.mp h
  rw [hl]
  exact Option.some_ne_none l

/-- There is a link, and it is up. -/
def isUp (t : LinkTable) (a : Loc) : Bool := (t.lookup a).any fun l => l.dev.up

theorem isUp_congr {t t' : LinkTable} {a : Loc} (h : t'.lookup a = t.lookup a) :
    t'.isUp a = t.isUp a := by
  unfold isUp
  rw [h]

theorem isUp_iff {t : LinkTable} {a : Loc} :
    t.isUp a = true ↔ ∃ l, t.lookup a = some l ∧ l.dev.up = true := by
  unfold isUp
  cases t.lookup a with
  | none => simp
  | some l => simp

/-- The table without links. -/
def empty : LinkTable where
  lookup _ := none
  peered h _ := by simp at h

/-! ### Adding links -/

/-- `ip link add name A type bridge`. -/
def addBridge (t : LinkTable) (a : Loc) : Option LinkTable :=
  if h : t.lookup a = none then
    some
      { lookup := fun x => if x = a then some ⟨.bridge, .fresh⟩ else t.lookup x
        peered := by
          intro x y l hl hk
          split at hl
          · obtain rfl : ⟨.bridge, .fresh⟩ = l := by simpa using hl
            simp at hk
          · obtain ⟨hne, l', hl', hk'⟩ := t.peered hl hk
            have hya : y ≠ a := by
              rintro rfl
              rw [h] at hl'
              simp at hl'
            exact ⟨hne, l', by rw [if_neg hya]; exact hl', hk'⟩ }
  else none

theorem addBridge_eq_some {t t' : LinkTable} {a : Loc} (h : t.addBridge a = some t') :
    t.lookup a = none ∧
      ∀ x, t'.lookup x = if x = a then some ⟨.bridge, .fresh⟩ else t.lookup x := by
  unfold addBridge at h
  split at h
  · rename_i hfree
    obtain rfl := by simpa using h
    exact ⟨hfree, fun _ => rfl⟩
  · simp at h

theorem addBridge_eq_none {t : LinkTable} {a : Loc} : t.addBridge a = none ↔ t.lookup a ≠ none := by
  unfold addBridge
  split <;> simp_all

/-- `ip link add A type veth peer name B`: both ends or neither. -/
def addPair (t : LinkTable) (a b : Loc) : Option LinkTable :=
  if h : a ≠ b ∧ t.lookup a = none ∧ t.lookup b = none then
    some
      { lookup := fun x =>
          if x = a then some ⟨.veth b, .fresh⟩
          else if x = b then some ⟨.veth a, .fresh⟩ else t.lookup x
        peered := by
          obtain ⟨hab, ha, hb⟩ := h
          intro x y l hl hk
          split at hl
          · rename_i hxa
            subst hxa
            obtain rfl : ⟨.veth b, .fresh⟩ = l := by simpa using hl
            obtain rfl : b = y := by simpa using hk
            exact ⟨hab, ⟨.veth x, .fresh⟩, by simp [hab.symm], rfl⟩
          · rename_i hxa
            split at hl
            · rename_i hxb
              subst hxb
              obtain rfl : ⟨.veth a, .fresh⟩ = l := by simpa using hl
              obtain rfl : a = y := by simpa using hk
              exact ⟨hab.symm, ⟨.veth x, .fresh⟩, by simp, rfl⟩
            · obtain ⟨hne, l', hl', hk'⟩ := t.peered hl hk
              have hya : y ≠ a := by
                rintro rfl
                rw [ha] at hl'
                simp at hl'
              have hyb : y ≠ b := by
                rintro rfl
                rw [hb] at hl'
                simp at hl'
              exact ⟨hne, l', by rw [if_neg hya, if_neg hyb]; exact hl', hk'⟩ }
  else none

theorem addPair_eq_some {t t' : LinkTable} {a b : Loc} (h : t.addPair a b = some t') :
    a ≠ b ∧ t.lookup a = none ∧ t.lookup b = none ∧
      ∀ x, t'.lookup x = if x = a then some ⟨.veth b, .fresh⟩
        else if x = b then some ⟨.veth a, .fresh⟩ else t.lookup x := by
  unfold addPair at h
  split at h
  · rename_i hfree
    obtain rfl := by simpa using h
    exact ⟨hfree.1, hfree.2.1, hfree.2.2, fun _ => rfl⟩
  · simp at h

theorem addPair_isSome {t : LinkTable} {a b : Loc} (hab : a ≠ b) (ha : t.lookup a = none)
    (hb : t.lookup b = none) : ∃ t', t.addPair a b = some t' := by
  unfold addPair
  rw [dif_pos ⟨hab, ha, hb⟩]
  exact ⟨_, rfl⟩

/-! ### Changing devices -/

/-- Change devices without changing what the links are. -/
def mapDev (t : LinkTable) (g : Loc → Dev → Dev) : LinkTable where
  lookup x := (t.lookup x).map fun l => { l with dev := g x l.dev }
  peered := by
    intro a b l hl hk
    obtain ⟨l₀, hl₀, rfl⟩ := Option.map_eq_some_iff.mp hl
    obtain ⟨hne, l', hl', hk'⟩ := t.peered hl₀ hk
    exact ⟨hne, { l' with dev := g b l'.dev }, by rw [hl']; rfl, hk'⟩

@[simp] theorem mapDev_lookup (t : LinkTable) (g : Loc → Dev → Dev) (x : Loc) :
    (t.mapDev g).lookup x = (t.lookup x).map fun l => { l with dev := g x l.dev } := rfl

@[simp] theorem mapDev_kindAt (t : LinkTable) (g : Loc → Dev → Dev) (x : Loc) :
    (t.mapDev g).kindAt x = t.kindAt x := by
  unfold kindAt
  rw [mapDev_lookup, Option.map_map]
  rfl

/-- Change one device, which has to be there. -/
def setDev (t : LinkTable) (a : Loc) (f : Dev → Dev) : Option LinkTable :=
  if (t.lookup a).isSome then some (t.mapDev fun x d => if x = a then f d else d) else none

theorem setDev_eq_some {t t' : LinkTable} {a : Loc} {f : Dev → Dev} (h : t.setDev a f = some t') :
    ∃ l, t.lookup a = some l ∧
      ∀ x, t'.lookup x = if x = a then some { l with dev := f l.dev } else t.lookup x := by
  unfold setDev at h
  split at h
  · rename_i hsome
    obtain ⟨l, hl⟩ := Option.isSome_iff_exists.mp hsome
    obtain rfl := by simpa using h
    refine ⟨l, hl, fun x => ?_⟩
    by_cases hx : x = a
    · subst hx
      simp [hl]
    · simp [hx]
  · simp at h

theorem setDev_eq_none {t : LinkTable} {a : Loc} {f : Dev → Dev} :
    t.setDev a f = none ↔ t.lookup a = none := by
  unfold setDev
  split
  · rename_i h
    simpa [Option.isSome_iff_ne_none] using h
  · rename_i h
    simpa using h

theorem setDev_isSome {t : LinkTable} {a : Loc} {l : Link} (f : Dev → Dev)
    (h : t.lookup a = some l) : ∃ t', t.setDev a f = some t' := by
  unfold setDev
  rw [if_pos (by simp [h])]
  exact ⟨_, rfl⟩

theorem setDev_kindAt {t t' : LinkTable} {a : Loc} {f : Dev → Dev} (h : t.setDev a f = some t')
    (x : Loc) : t'.kindAt x = t.kindAt x := by
  unfold setDev at h
  split at h
  · obtain rfl := by simpa using h
    exact mapDev_kindAt t _ x
  · simp at h

/-! ### Removing links -/

/-- Remove a link, and with a veth end its peer. -/
def erase (t : LinkTable) (a : Loc) : LinkTable where
  lookup x := if x = a ∨ t.peerOf a = some x then none else t.lookup x
  peered := by
    intro x y l hl hk
    split at hl
    · simp at hl
    · rename_i hx
      rw [not_or] at hx
      obtain ⟨hne, l', hl', hk'⟩ := t.peered hl hk
      have hy : ¬(y = a ∨ t.peerOf a = some y) := by
        rintro (rfl | hpeer)
        · exact hx.2 (peerOf_eq_some.mpr (kindAt_eq_some.mpr ⟨l', hl', hk'⟩))
        · have hback := (kindAt_peer (peerOf_eq_some.mp hpeer)).2
          have hsame : t.kindAt y = some (.veth x) := kindAt_eq_some.mpr ⟨l', hl', hk'⟩
          rw [hsame] at hback
          exact hx.1 (by simpa using hback)
      exact ⟨hne, l', by rw [if_neg hy]; exact hl', hk'⟩

@[simp] theorem erase_lookup (t : LinkTable) (a x : Loc) :
    (t.erase a).lookup x = if x = a ∨ t.peerOf a = some x then none else t.lookup x := rfl

/-- The links of a namespace forget a bridge that goes away. -/
def release (t : LinkTable) (a : Loc) : LinkTable :=
  t.mapDev fun x d => if x.ns = a.ns ∧ d.master = some a.name then { d with master := none } else d

/-- `ip link delete A`: a veth end takes its peer with it, a bridge frees its ports. -/
def delete (t : LinkTable) (a : Loc) : Option LinkTable :=
  match t.kindAt a with
  | none => none
  | some .bridge => some ((t.release a).erase a)
  | some _ => some (t.erase a)

theorem delete_eq_none {t : LinkTable} {a : Loc} : t.delete a = none ↔ t.lookup a = none := by
  unfold delete
  split
  · rename_i h
    simpa using kindAt_none.mp h
  · rename_i h
    obtain ⟨l, hl, -⟩ := kindAt_eq_some.mp h
    simp [hl]
  · rename_i k h
    obtain ⟨l, hl, -⟩ := kindAt_eq_some.mp h
    simp [hl]

/-- Deleting a link touches itself, its peer and, for a bridge, its ports. -/
theorem delete_lookup {t t' : LinkTable} {a : Loc} (h : t.delete a = some t') {x : Loc} {l : Link}
    (hxa : x ≠ a) (hpeer : t.kindAt x ≠ some (.veth a)) (hl : t.lookup x = some l)
    (hport : x.ns = a.ns → l.dev.master ≠ some a.name) : t'.lookup x = some l := by
  have hkeep : ∀ t₁ : LinkTable, t₁.kindAt x = t.kindAt x → t₁.lookup x = some l →
      (t₁.erase a).lookup x = some l := by
    intro t₁ hk hl₁
    rw [erase_lookup, if_neg, hl₁]
    rintro (hx | hp)
    · exact hxa hx
    · exact hpeer (hk ▸ (kindAt_peer (peerOf_eq_some.mp hp)).2)
  unfold delete at h
  split at h
  · simp at h
  · obtain rfl := by simpa using h
    refine hkeep _ (mapDev_kindAt t _ x) ?_
    unfold release
    rw [mapDev_lookup, hl]
    have hno : ¬(x.ns = a.ns ∧ l.dev.master = some a.name) := fun hc => hport hc.1 hc.2
    simp [hno]
  · obtain rfl := by simpa using h
    exact hkeep t rfl hl

theorem delete_self {t t' : LinkTable} {a : Loc} (h : t.delete a = some t') :
    t'.lookup a = none := by
  unfold delete at h
  split at h
  · simp at h
  all_goals
    obtain rfl := by simpa using h
    simp

theorem delete_lookup_none {t t' : LinkTable} {a x : Loc} (h : t.delete a = some t')
    (hx : t.lookup x = none) : t'.lookup x = none := by
  unfold delete at h
  split at h
  · simp at h
  all_goals
    obtain rfl := by simpa using h
    simp [release, hx]

/-! ### Moving a link to another namespace -/

/-- Move a link to a free location; its peer follows with its pointer. -/
def relocate (t : LinkTable) (a b : Loc) (hfree : t.lookup b = none) : LinkTable where
  lookup x :=
    if x = b then (t.lookup a).map fun l => ⟨l.kind, .fresh⟩
    else if x = a then none
    else if t.peerOf a = some x then (t.lookup x).map fun l => ⟨.veth b, l.dev⟩
    else t.lookup x
  peered := by
    intro x y l hl hk
    split at hl
    · -- the link that moved: its peer now points at `b`
      rename_i hxb
      subst hxb
      obtain ⟨la, hla, rfl⟩ := Option.map_eq_some_iff.mp hl
      obtain ⟨hay, l', hl', hk'⟩ := t.peered hla hk
      have hyx : y ≠ x := by
        rintro rfl
        rw [hfree] at hl'
        simp at hl'
      have hpeer : t.peerOf a = some y := peerOf_eq_some.mpr (kindAt_eq_some.mpr ⟨la, hla, hk⟩)
      exact ⟨hyx.symm, ⟨.veth x, l'.dev⟩,
        by rw [if_neg hyx, if_neg hay.symm, if_pos hpeer, hl']; rfl, rfl⟩
    · rename_i hxb
      split at hl
      · simp at hl
      · rename_i hxa
        split at hl
        · -- the peer of the link that moved
          rename_i hpeer
          obtain ⟨lx, hlx, rfl⟩ := Option.map_eq_some_iff.mp hl
          obtain rfl : b = y := by simpa using hk
          obtain ⟨la, hla, hka⟩ := kindAt_eq_some.mp (peerOf_eq_some.mp hpeer)
          exact ⟨hxb, ⟨la.kind, .fresh⟩, by rw [if_pos rfl, hla]; rfl, hka⟩
        · rename_i hpeer
          obtain ⟨hne, l', hl', hk'⟩ := t.peered hl hk
          have hyb : y ≠ b := by
            rintro rfl
            rw [hfree] at hl'
            simp at hl'
          have hya : y ≠ a := by
            rintro rfl
            exact hpeer (peerOf_eq_some.mpr (kindAt_eq_some.mpr ⟨l', hl', hk'⟩))
          have hyp : t.peerOf a ≠ some y := by
            intro hp
            have hback := (kindAt_peer (peerOf_eq_some.mp hp)).2
            rw [kindAt_eq_some.mpr ⟨l', hl', hk'⟩] at hback
            exact hxa (by simpa using hback)
          exact ⟨hne, l', by rw [if_neg hyb, if_neg hya, if_neg hyp]; exact hl', hk'⟩

/-- `ip link set A netns ..`, between two different namespaces.  A bridge cannot move. -/
def move (t : LinkTable) (a b : Loc) : Option LinkTable :=
  match t.kindAt a with
  | none => none
  | some .bridge => none
  | some _ => if h : t.lookup b = none then some (t.relocate a b h) else none

theorem move_eq_some {t t' : LinkTable} {a b : Loc} (h : t.move a b = some t') :
    ∃ l, t.lookup a = some l ∧ t.lookup b = none ∧
      ∀ x, t'.lookup x =
        if x = b then some ⟨l.kind, .fresh⟩
        else if x = a then none
        else if l.kind = .veth x then (t.lookup x).map fun l' => ⟨.veth b, l'.dev⟩
        else t.lookup x := by
  unfold move at h
  split at h
  · simp at h
  · simp at h
  · rename_i k hne hk
    split at h
    · rename_i hfree
      obtain rfl := by simpa using h
      obtain ⟨l, hl, rfl⟩ := kindAt_eq_some.mp hk
      have hpeer : ∀ x, t.peerOf a = some x ↔ l.kind = .veth x := by
        intro x
        rw [peerOf_eq_some, hk]
        simp
      exact ⟨l, hl, hfree, fun x => by simp only [relocate, hl, hpeer, Option.map_some]⟩
    · simp at h

theorem addBridge_keeps_up {t t' : LinkTable} {a x : Loc} (ht : t.addBridge a = some t')
    (hup : t.isUp x = true) : t'.isUp x = true := by
  obtain ⟨hfree, hall⟩ := addBridge_eq_some ht
  obtain ⟨l, hl, -⟩ := isUp_iff.mp hup
  have hxa : x ≠ a := by
    rintro rfl
    rw [hfree] at hl
    cases hl
  rw [isUp_congr ((hall x).trans (if_neg hxa))]
  exact hup

theorem delete_keeps_up {t t' : LinkTable} {a x : Loc} (ht : t.delete a = some t') (hxa : x ≠ a)
    (hpeer : t.kindAt a ≠ some (.veth x)) (hup : t.isUp x = true) : t'.isUp x = true := by
  obtain ⟨l, hl, hlup⟩ := isUp_iff.mp hup
  have hgone : ¬(x = a ∨ t.peerOf a = some x) := by
    rintro (hx | hp)
    · exact hxa hx
    · exact hpeer (peerOf_eq_some.mp hp)
  unfold delete at ht
  split at ht
  · cases ht
  · rename_i hk
    obtain rfl := Option.some.inj ht
    have hpeer' : (t.release a).peerOf a = t.peerOf a := by
      unfold peerOf release
      rw [mapDev_kindAt]
    refine isUp_iff.mpr ⟨{ l with dev := if x.ns = a.ns ∧ l.dev.master = some a.name
      then { l.dev with master := none } else l.dev }, ?_, ?_⟩
    · rw [erase_lookup, hpeer', if_neg hgone]
      unfold release
      rw [mapDev_lookup, hl]
      rfl
    · dsimp only
      split_ifs <;> exact hlup
  · obtain rfl := Option.some.inj ht
    refine isUp_iff.mpr ⟨l, ?_, hlup⟩
    rw [erase_lookup, if_neg hgone, hl]

theorem setDev_keeps_up {t t' : LinkTable} {a x : Loc} {f : Dev → Dev}
    (ht : t.setDev a f = some t') (hf : ∀ d : Dev, d.up = true → (f d).up = true)
    (hup : t.isUp x = true) : t'.isUp x = true := by
  obtain ⟨l, hl, hall⟩ := setDev_eq_some ht
  obtain ⟨lx, hlx, hlup⟩ := isUp_iff.mp hup
  by_cases hxa : x = a
  · subst hxa
    obtain rfl := Option.some.inj (hl.symm.trans hlx)
    exact isUp_iff.mpr ⟨_, (hall x).trans (if_pos rfl), hf _ hlup⟩
  · rw [isUp_congr ((hall x).trans (if_neg hxa))]
    exact hup

theorem move_keeps_up {t t' : LinkTable} {a b x : Loc} (ht : t.move a b = some t') (hxa : x ≠ a)
    (hup : t.isUp x = true) : t'.isUp x = true := by
  obtain ⟨l, hl, hfree, hall⟩ := move_eq_some ht
  obtain ⟨lx, hlx, hlup⟩ := isUp_iff.mp hup
  have hxb : x ≠ b := by
    rintro rfl
    rw [hfree] at hlx
    cases hlx
  refine isUp_iff.mpr ?_
  rw [hall, if_neg hxb, if_neg hxa]
  by_cases hpeer : l.kind = .veth x
  · rw [if_pos hpeer, hlx]
    exact ⟨_, rfl, hlup⟩
  · rw [if_neg hpeer]
    exact ⟨lx, hlx, hlup⟩

end LinkTable

end Cruntime
