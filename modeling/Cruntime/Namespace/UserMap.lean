/-
`namespace_setup_user` and the id maps of a user namespace.

A user namespace gets each of its two maps at most once: the kernel refuses every write to a map
that has been written.  The function writes the map of the users first and that of the groups
second, and returns when one of the two fails.  So a call that fails between them has used up the
users' map, and no later call can succeed (`setupUser_at_most_once`).

The maps are written as text, `"0 %d 1"` of an id that has no sign.  From 2^31 on the `%d` prints
a minus, which the kernel does not read.  And a process inside the namespace may only map the
ids it has itself, the group only when it has given up `setgroups`, which is why `deny` is written
first.  Together that makes the exact condition for success (`setupUser_ok_iff`).
-/
import Cruntime.Cgroup.Limits
import Cruntime.Lib.Runs

namespace Cruntime

open Script (issue run)

/-! ### What the kernel reads -/

/-- One line of an id map: `count` ids from `inside` on stand for those from `outside` on. -/
structure IdRange where
  inside : Nat
  outside : Nat
  count : Nat
deriving DecidableEq

/-- A number and what is behind it, as `simple_strtoul` reads it into 32 bits. -/
def readId (s : CStr) : Nat × CStr :=
  (digitsValue (s.takeWhile Char.isDigit) % 2 ^ 32, s.dropWhile Char.isDigit)

/-- A number with white space behind it, and what follows that. -/
def readField (s : CStr) : Option (Nat × CStr) :=
  let (n, rest) := readId (s.dropWhile isSpace)
  if rest.head?.any isSpace then some (n, rest) else none

/-- One line of a map.  Its ids are below 2^32 - 1, and the ranges are not empty and do not wrap. -/
def readRange (line : CStr) : Option IdRange := do
  let (inside, rest) ← readField line
  let (outside, rest) ← readField rest
  let (count, rest) := readId (rest.dropWhile isSpace)
  if rest.dropWhile isSpace = [] ∧ inside < 2 ^ 32 - 1 ∧ outside < 2 ^ 32 - 1 ∧ 0 < count ∧
      inside + count < 2 ^ 32 ∧ outside + count < 2 ^ 32 then
    some ⟨inside, outside, count⟩
  else none

/-! ### The namespace and its files -/

/-- The ids that the process has outside the namespace. -/
structure Creds where
  euid : Nat
  egid : Nat

structure UserNs where
  uidMap : Option IdRange
  gidMap : Option IdRange
  setgroups : Bool
deriving DecidableEq

inductive UserFile where
  | setgroups
  | uidMap
  | gidMap
deriving DecidableEq

inductive UserCmd where
  | open (file : UserFile)
  | write (file : UserFile) (text : CStr)
deriving DecidableEq

/-- A map of one line, for a process that has no rights outside: its own id and no other. -/
def ownRange (id : Nat) (text : CStr) : Option IdRange :=
  (readRange text).filter fun range => range.count = 1 ∧ range.outside = id

/-- What a call does when nothing refuses it.  `deny` is too late once the groups are mapped. -/
def UserCmd.effect (creds : Creds) : UserCmd → UserNs → Option UserNs
  | .open _, ns => some ns
  | .write .setgroups text, ns =>
      if text = "deny".toList ∧ ns.gidMap = none then some { ns with setgroups := false } else none
  | .write .uidMap text, ns =>
      if ns.uidMap ≠ none then none
      else (ownRange creds.euid text).map fun range => { ns with uidMap := some range }
  | .write .gidMap text, ns =>
      if ns.gidMap ≠ none ∨ ns.setgroups = true then none
      else (ownRange creds.egid text).map fun range => { ns with gidMap := some range }

/-! ### The function -/

/-- `"0 %d 1"` of an id: `%d` takes its 32 bits for a signed number. -/
def mapData (id : UInt32) : CStr := "0 ".toList ++ decimalInt id.toInt32.toInt ++ " 1".toList

/-- The two maps of `namespace_setup_user`. -/
def setupMaps (uid gid : UInt32) : Script UserCmd CrCode := do
  -- Map UID
  unless ← issue (.open .uidMap) do
    return .esyscall
  unless ← issue (.write .uidMap (mapData uid)) do
    return .esyscall
  -- Map GID
  unless ← issue (.open .gidMap) do
    return .esyscall
  unless ← issue (.write .gidMap (mapData gid)) do
    return .esyscall
  return .ok

/-- `namespace_setup_user`. -/
def namespaceSetupUser (uid gid : UInt32) : Script UserCmd CrCode := do
  -- Deny setgroups first
  if ← issue (.open .setgroups) then
    let _ ← issue (.write .setgroups "deny".toList)
  setupMaps uid gid

/-! ### What is printed is read -/

theorem dropWhile_isSpace_decimal (n : Nat) (s : CStr) :
    (decimal n ++ s).dropWhile isSpace = decimal n ++ s := by
  cases hn : decimal n with
  | nil => exact absurd hn (decimal_ne_nil n)
  | cons d ds =>
      have hd : d.isDigit = true := isDigit_of_mem_decimal (n := n) (by rw [hn]; simp)
      rw [List.cons_append, List.dropWhile_cons_of_neg (by simp [isSpace_of_isDigit hd])]

theorem readField_decimal {n : Nat} (hn : n < 2 ^ 32) (s : CStr) :
    readField (decimal n ++ ' ' :: s) = some (n, ' ' :: s) := by
  have hdigits : ∀ d ∈ decimal n, d.isDigit = true := fun _ => isDigit_of_mem_decimal
  have hread : readId (decimal n ++ ' ' :: s) = (n, ' ' :: s) := by
    unfold readId
    rw [List.takeWhile_append_of_pos hdigits, List.dropWhile_append_of_pos hdigits]
    simp [digitsValue_decimal]
    omega
  unfold readField
  rw [dropWhile_isSpace_decimal, hread]
  rfl

/-- The kernel reads the line of an id below 2^31 as what it is meant to say. -/
theorem readRange_mapData {id : UInt32} (h : id.toNat < 2 ^ 31) :
    readRange (mapData id) = some ⟨0, id.toNat, 1⟩ := by
  have hint : id.toInt32.toInt = Int.ofNat id.toNat := by
    show id.toBitVec.toInt = Int.ofNat id.toBitVec.toNat
    rw [BitVec.toInt_eq_toNat_of_lt]
    · rfl
    · have htwo : id.toBitVec.toNat < 2 ^ 31 := h
      omega
  have hfirst : readField (mapData id) = some (0, ' ' :: decimal id.toNat ++ " 1".toList) := by
    unfold mapData
    rw [hint]
    exact readField_decimal (n := 0) (by decide) _
  have hsecond : readField (' ' :: decimal id.toNat ++ " 1".toList) =
      some (id.toNat, " 1".toList) := by
    have hskip : readField (' ' :: decimal id.toNat ++ " 1".toList) =
        readField (decimal id.toNat ++ " 1".toList) := by
      unfold readField
      rw [List.cons_append, List.dropWhile_cons_of_pos rfl]
    rw [hskip]
    exact readField_decimal (by omega) ['1']
  unfold readRange
  rw [hfirst]
  simp only [Option.bind_eq_bind, Option.bind_some, hsecond]
  have hlast : readId (" 1".toList.dropWhile isSpace) = (1, []) := by decide
  rw [hlast]
  simp
  omega

/-- From 2^31 on there is a minus, and the line is not read. -/
theorem readRange_mapData_none {id : UInt32} (h : 2 ^ 31 ≤ id.toNat) :
    readRange (mapData id) = none := by
  have hneg : id.toInt32.toInt < 0 := by
    show id.toBitVec.toInt < 0
    rw [BitVec.toInt_neg_iff]
    have htwo : 2 ^ 31 ≤ id.toBitVec.toNat := h
    omega
  obtain ⟨n, hn⟩ : ∃ n, id.toInt32.toInt = Int.negSucc n := Int.eq_negSucc_of_lt_zero hneg
  have hfirst : readField (mapData id) =
      some (0, ' ' :: '-' :: decimal (n + 1) ++ " 1".toList) := by
    unfold mapData
    rw [hn]
    exact readField_decimal (n := 0) (by decide) _
  unfold readRange
  rw [hfirst]
  rfl

/-- **Of its own id a process can write the line exactly when the id is below 2^31.** -/
theorem ownRange_mapData (own : Nat) (id : UInt32) :
    ownRange own (mapData id) =
      if id.toNat < 2 ^ 31 ∧ id.toNat = own then some ⟨0, own, 1⟩ else none := by
  unfold ownRange
  by_cases hsmall : id.toNat < 2 ^ 31
  · rw [readRange_mapData hsmall]
    by_cases hown : id.toNat = own
    · rw [Option.filter_some_pos (by simp [hown]), if_pos ⟨hsmall, hown⟩, hown]
    · rw [Option.filter_some_neg (by simp [hown]), if_neg fun h => hown h.2]
  · rw [readRange_mapData_none (by omega), if_neg (fun h => hsmall h.1)]
    rfl

/-! ### One call -/

/-- The map of one id of the process. -/
def soleRange (id : UInt32) : IdRange := ⟨0, id.toNat, 1⟩

/-- The process has this id outside, and it prints without a minus. -/
def Mappable (own : Nat) (id : UInt32) : Prop := id.toNat = own ∧ id.toNat < 2 ^ 31

instance (own : Nat) (id : UInt32) : Decidable (Mappable own id) :=
  inferInstanceAs (Decidable (_ ∧ _))

theorem ownRange_eq (own : Nat) (id : UInt32) :
    ownRange own (mapData id) = if Mappable own id then some (soleRange id) else none := by
  rw [ownRange_mapData]
  by_cases h : Mappable own id
  · rw [if_pos h, if_pos ⟨h.2, h.1⟩, ← h.1]
    rfl
  · rw [if_neg h, if_neg fun hsmall => h ⟨hsmall.2, hsmall.1⟩]

variable {creds : Creds} {uid gid : UInt32}

/-- What a write of the users' map says when it succeeds. -/
theorem effect_uidMap {ns ns' : UserNs}
    (h : UserCmd.effect creds (.write .uidMap (mapData uid)) ns = some ns') :
    ns.uidMap = none ∧ Mappable creds.euid uid ∧
      ns' = { ns with uidMap := some (soleRange uid) } := by
  simp only [UserCmd.effect, ownRange_eq] at h
  split_ifs at h with hmapped hid
  · exact ⟨not_not.mp hmapped, hid, (Option.some.inj h).symm⟩
  · simp at h

/-- And one of the groups' map. -/
theorem effect_gidMap {ns ns' : UserNs}
    (h : UserCmd.effect creds (.write .gidMap (mapData gid)) ns = some ns') :
    ns.gidMap = none ∧ ns.setgroups = false ∧ Mappable creds.egid gid ∧
      ns' = { ns with gidMap := some (soleRange gid) } := by
  simp only [UserCmd.effect, ownRange_eq] at h
  split_ifs at h with hmapped hid
  · obtain ⟨hgid, hset⟩ := not_or.mp hmapped
    exact ⟨not_not.mp hgid, by simpa using hset, hid, (Option.some.inj h).symm⟩
  · simp at h

/-- Giving up `setgroups` touches no map. -/
theorem effect_setgroups {ns ns' : UserNs} {text : CStr}
    (h : UserCmd.effect creds (.write .setgroups text) ns = some ns') :
    ns' = { ns with setgroups := false } := by
  simp only [UserCmd.effect] at h
  split_ifs at h
  exact (Option.some.inj h).symm

/-- What a call leaves behind: nothing new with the users mapped before, and otherwise the users'
map at most, or both. -/
def CallLeaves (creds : Creds) (uid gid : UInt32) (ns : UserNs) (code : CrCode) (ns' : UserNs) :
    Prop :=
  (code = .esyscall ∧ ns'.uidMap = ns.uidMap ∧ ns'.gidMap = ns.gidMap) ∨
  (ns.uidMap = none ∧ Mappable creds.euid uid ∧ ns'.uidMap = some (soleRange uid) ∧
    (code = .esyscall ∧ ns'.gidMap = ns.gidMap ∨
      code = .ok ∧ ns.gidMap = none ∧ Mappable creds.egid gid ∧
        ns'.gidMap = some (soleRange gid) ∧ ns'.setgroups = false))

/-- The two maps, from wherever the write to `setgroups` left the namespace. -/
theorem wp_maps {ns ns₁ : UserNs} (huid : ns₁.uidMap = ns.uidMap) (hgid : ns₁.gidMap = ns.gidMap) :
    Script.wp (UserCmd.effect creds) (setupMaps uid gid) (CallLeaves creds uid gid ns) ns₁ := by
  have hnothing : CallLeaves creds uid gid ns .esyscall ns₁ := Or.inl ⟨rfl, huid, hgid⟩
  refine ⟨?_, hnothing⟩
  intro ns₂ hopen
  obtain rfl := Option.some.inj hopen
  refine ⟨?_, hnothing⟩
  intro ns₃ hwrite
  obtain ⟨hnone, hid, rfl⟩ := effect_uidMap hwrite
  -- the users' map is used up from here on
  have husers : CallLeaves creds uid gid ns .esyscall
      { ns₁ with uidMap := some (soleRange uid) } :=
    Or.inr ⟨huid ▸ hnone, hid, rfl, Or.inl ⟨rfl, hgid⟩⟩
  refine ⟨?_, husers⟩
  intro ns₄ hopen
  obtain rfl := Option.some.inj hopen
  refine ⟨?_, husers⟩
  intro ns₅ hwrite
  obtain ⟨hgroups, hset, hown, rfl⟩ := effect_gidMap hwrite
  exact Or.inr ⟨huid ▸ hnone, hid, rfl, Or.inr ⟨rfl, hgid ▸ hgroups, hown, rfl, hset⟩⟩

theorem wp_setupUser (ns : UserNs) (uid gid : UInt32) :
    Script.wp (UserCmd.effect creds) (namespaceSetupUser uid gid)
      (CallLeaves creds uid gid ns) ns := by
  refine ⟨?_, wp_maps rfl rfl⟩
  intro ns₁ hopen
  obtain rfl := Option.some.inj hopen
  refine ⟨?_, wp_maps rfl rfl⟩
  intro ns₂ hdeny
  obtain rfl := effect_setgroups hdeny
  exact wp_maps rfl rfl

/-- **With nothing refused, a call succeeds exactly in a namespace that has no maps yet, with the
ids of the process itself, both below 2^31.** -/
theorem setupUser_ok_iff (ns : UserNs) (uid gid : UInt32) :
    (run (UserCmd.effect creds) (namespaceSetupUser uid gid) (World.calm ns)).1 = .ok ↔
      (ns.uidMap = none ∧ ns.gidMap = none) ∧
        (uid.toNat = creds.euid ∧ uid.toNat < 2 ^ 31) ∧
        (gid.toNat = creds.egid ∧ gid.toNat < 2 ^ 31) := by
  constructor
  · intro hok
    have hleft := Script.wp_run (UserCmd.effect creds) (World.calm ns)
      (wp_setupUser ns uid gid)
    rw [hok] at hleft
    obtain ⟨hcode, _⟩ | ⟨huid, hown, _, ⟨hcode, _⟩ | ⟨_, hgid, hgroup, _⟩⟩ := hleft
    · cases hcode
    · cases hcode
    · exact ⟨⟨huid, hgid⟩, hown, hgroup⟩
  · rintro ⟨⟨huid, hgid⟩, hown, hgroup⟩
    have hdeny : UserCmd.effect creds (.write .setgroups "deny".toList) ns =
        some { ns with setgroups := false } := if_pos ⟨rfl, hgid⟩
    have husers : UserCmd.effect creds (.write .uidMap (mapData uid))
        { ns with setgroups := false } = some ⟨some (soleRange uid), ns.gidMap, false⟩ := by
      simp only [UserCmd.effect, ownRange_eq]
      rw [if_neg (not_not.mpr huid), if_pos (show Mappable creds.euid uid from hown)]
      rfl
    have hgroups : UserCmd.effect creds (.write .gidMap (mapData gid))
        ⟨some (soleRange uid), ns.gidMap, false⟩ =
          some ⟨some (soleRange uid), some (soleRange gid), false⟩ := by
      simp only [UserCmd.effect, ownRange_eq]
      rw [if_neg (by simp [hgid]), if_pos (show Mappable creds.egid gid from hgroup)]
      rfl
    unfold namespaceSetupUser setupMaps
    simp only [Script.issue_bind]
    have hopen : ∀ (file : UserFile) (ns : UserNs),
        UserCmd.effect creds (.open file) ns = some ns := fun _ _ => rfl
    rw [Script.run_exec_of_some _ rfl (hopen .setgroups _), if_pos rfl,
      Script.run_exec_of_some _ rfl hdeny]
    rw [Script.run_exec_of_some _ rfl (hopen .uidMap _), if_pos rfl,
      Script.run_exec_of_some _ rfl husers, if_pos rfl]
    rw [Script.run_exec_of_some _ rfl (hopen .gidMap _), if_pos rfl,
      Script.run_exec_of_some _ rfl hgroups]
    rfl

/-! ### Runs of calls -/

/-- A call, with what the host refuses during it. -/
structure SetupUser where
  uid : UInt32
  gid : UInt32
  faults : Nat → Bool

namespace SetupUser

def outcome (creds : Creds) (ns : UserNs) (call : SetupUser) : CrCode × World UserNs :=
  run (UserCmd.effect creds) (namespaceSetupUser call.uid call.gid) ⟨ns, call.faults⟩

def step (creds : Creds) (ns : UserNs) (call : SetupUser) : UserNs :=
  (outcome creds ns call).2.state

/-- The call returns an error. -/
def Fails (creds : Creds) (ns : UserNs) (call : SetupUser) : Prop :=
  (outcome creds ns call).1 = .esyscall

theorem leaves (creds : Creds) (ns : UserNs) (call : SetupUser) :
    CallLeaves creds call.uid call.gid ns (outcome creds ns call).1 (step creds ns call) :=
  Script.wp_run (UserCmd.effect creds) (World.mk ns call.faults)
    (wp_setupUser ns call.uid call.gid)

/-- A call in a namespace whose users are mapped fails, and leaves both maps alone. -/
theorem fails_of_mapped (creds : Creds) {ns : UserNs} (h : ns.uidMap ≠ none) (call : SetupUser) :
    Fails creds ns call ∧ (step creds ns call).uidMap = ns.uidMap ∧
      (step creds ns call).gidMap = ns.gidMap := by
  obtain hfails | ⟨hnone, _⟩ := leaves creds ns call
  · exact hfails
  · exact absurd hnone h

/-- So does every call of a run from there. -/
theorem run_of_mapped (creds : Creds) (calls : List SetupUser) : ∀ {ns : UserNs}, ns.uidMap ≠ none →
    Runs.Along (step creds) (Fails creds) ns calls ∧
      (Runs.after (step creds) ns calls).uidMap = ns.uidMap ∧
      (Runs.after (step creds) ns calls).gidMap = ns.gidMap := by
  induction calls with
  | nil => intro ns _; exact ⟨trivial, rfl, rfl⟩
  | cons call rest ih =>
      intro ns h
      obtain ⟨hfails, huid, hgid⟩ := fails_of_mapped creds h call
      obtain ⟨hrest, huid', hgid'⟩ := @ih (step creds ns call) (huid ▸ h)
      exact ⟨⟨hfails, hrest⟩, huid'.trans huid, hgid'.trans hgid⟩

/-- Every call that comes before one that succeeds fails: it would have used up the map. -/
theorem fails_before {ns : UserNs} (calls : List SetupUser)
    (h : (Runs.after (step creds) ns calls).uidMap = none) :
    Runs.Along (step creds) (Fails creds) ns calls := by
  induction calls generalizing ns with
  | nil => trivial
  | cons call rest ih =>
      refine ⟨?_, ih h⟩
      obtain ⟨hcode, _⟩ | ⟨_, _, huid, _⟩ := leaves creds ns call
      · exact hcode
      · -- the map is written, and stays written to the end
        have hmapped : (step creds ns call).uidMap ≠ none := by simp [huid]
        have hstays := (run_of_mapped creds rest hmapped).2.1
        exact absurd (hstays.symm.trans h) hmapped

/-- **Whatever is called and whatever is refused: once the users' map is written every later call
fails and the maps stay.  So a call that succeeds is the only one of its run, and its maps are
the ones at the end.** -/
theorem setupUser_at_most_once (ns : UserNs) (before after : List SetupUser) (call : SetupUser) :
    let amid := Runs.after (step creds) ns before
    let next := step creds amid call
    let final := Runs.after (step creds) ns (before ++ call :: after)
    (next.uidMap ≠ none → Runs.Along (step creds) (Fails creds) next after ∧
      final.uidMap = next.uidMap ∧ final.gidMap = next.gidMap) ∧
      ((outcome creds amid call).1 = .ok →
        Runs.Along (step creds) (Fails creds) ns before ∧
          Runs.Along (step creds) (Fails creds) next after ∧
          final.uidMap = some ⟨0, creds.euid, 1⟩ ∧ final.gidMap = some ⟨0, creds.egid, 1⟩) := by
  intro amid next final
  have hfinal : final = Runs.after (step creds) next after := by
    show Runs.after (step creds) ns (before ++ call :: after) = _
    rw [Runs.after_append, Runs.after_cons]
  have hlater : next.uidMap ≠ none → Runs.Along (step creds) (Fails creds) next after ∧
      final.uidMap = next.uidMap ∧ final.gidMap = next.gidMap := by
    intro hmapped
    rw [hfinal]
    exact run_of_mapped creds after hmapped
  refine ⟨hlater, ?_⟩
  intro hok
  obtain ⟨hcode, _⟩ | ⟨hnone, hown, husers, ⟨hcode, _⟩ | ⟨_, _, hgroup, hgroups, _⟩⟩ :=
    leaves creds amid call
  · rw [hok] at hcode
    cases hcode
  · rw [hok] at hcode
    cases hcode
  · obtain ⟨hfails, huid, hgid⟩ := hlater (by rw [husers]; simp)
    refine ⟨fails_before before hnone, hfails, ?_, ?_⟩
    · rw [huid, husers, soleRange, hown.1]
    · rw [hgid, hgroups, soleRange, hgroup.1]

/-- The first call is refused its groups, and the second, with nothing wrong about it, fails. -/
theorem setupUser_doomed :
    let refused : SetupUser := ⟨1000, 1000, fun n => n == 4⟩
    let good : SetupUser := ⟨1000, 1000, fun _ => false⟩
    let creds : Creds := ⟨1000, 1000⟩
    let ns : UserNs := ⟨none, none, true⟩
    (Runs.after (step creds) ns [refused]).uidMap ≠ none ∧
      Runs.Along (step creds) (Fails creds) (step creds ns refused) [good] := by
  intro refused good creds ns
  have hwritten : (step creds ns refused).uidMap ≠ none := by decide +kernel
  exact ⟨hwritten, ((setupUser_at_most_once ns [] [good] refused).1 hwritten).1⟩

end SetupUser

end Cruntime
