/-
The texts `-p` is meant for, and the texts it takes.

The handler cuts its argument at the first colon and the rest at the first slash, and
converts what it finds with `atoi` and a store into 16 bits.  On the texts of the grammar
that gives the ports they name.  On every other text with a colon it gives some ports as
well.
-/
import Cruntime.RunOptions

namespace Cruntime

/-! ### The grammar -/

/-- A decimal number from 1 to 65535. -/
structure IsPort (s : CStr) (n : Nat) : Prop where
  ne_nil : s ≠ []
  digits : ∀ c ∈ s, c.isDigit = true
  value : digitsValue s = n
  pos : 1 ≤ n
  le : n ≤ 65535

/-- `HOST:CONTAINER` or `HOST:CONTAINER/PROTO`, and the mapping it denotes. -/
inductive PublishText : CStr → PortMapping → Prop
  | plain {host container : CStr} {h c : Nat} (hhost : IsPort host h) (hcontainer : IsPort container c) :
      PublishText (host ++ ':' :: container) ⟨h, c, "tcp".toList⟩
  | withProtocol {host container protocol : CStr} {h c : Nat} (hhost : IsPort host h)
      (hcontainer : IsPort container c) (hprotocol : protocol = "tcp".toList ∨ protocol = "udp".toList) :
      PublishText (host ++ ':' :: (container ++ '/' :: protocol)) ⟨h, c, protocol⟩

theorem IsPort.notMem {s : CStr} {n : Nat} (h : IsPort s n) {c : Char} (hc : c.isDigit = false) :
    c ∉ s := by
  intro hmem
  rw [h.digits c hmem] at hc
  simp at hc

/-- `atoi` and the store into 16 bits give a port back. -/
theorem IsPort.atoi_eq {s : CStr} {n : Nat} (h : IsPort s n) : toUInt16 (atoi s) = n := by
  obtain ⟨hne, hdigits, hvalue, hpos, hle⟩ := h
  obtain ⟨c, rest, rfl⟩ := List.exists_cons_of_ne_nil hne
  have hc : c.isDigit = true := hdigits c (by simp)
  have hspace : (c :: rest).dropWhile isSpace = c :: rest := by
    rw [List.dropWhile_cons_of_neg (by simp [isSpace_of_isDigit hc])]
  have hall : (c :: rest).takeWhile Char.isDigit = c :: rest := List.takeWhile_eq_self_iff.mpr hdigits
  have hread : atoi (c :: rest) = (n : Int) := by
    unfold atoi
    rw [hspace]
    dsimp only
    split
    · rename_i heq
      rw [(List.cons.inj heq).1] at hc
      exact absurd hc (by decide)
    · rename_i heq
      rw [(List.cons.inj heq).1] at hc
      exact absurd hc (by decide)
    · rw [hall, hvalue, min_eq_left (by omega)]
      exact Int.bmod_eq_of_le (by omega) (by omega)
  rw [hread]
  unfold toUInt16
  omega

/-- **The handler reads the texts of the grammar as what they denote.** -/
theorem PublishText.parse_eq {arg : CStr} {pm : PortMapping} (h : PublishText arg pm) :
    parsePublish arg = some pm := by
  cases h with
  | plain hhost hcontainer =>
      unfold parsePublish
      rw [strchr_append (hhost.notMem rfl)]
      simp only [strchr_eq_none.mpr (hcontainer.notMem (c := '/') rfl), hhost.atoi_eq,
        hcontainer.atoi_eq]
  | @withProtocol host container protocol _ _ hhost hcontainer hprotocol =>
      have hshort : protocol.length ≤ 7 := by
        rcases hprotocol with rfl | rfl
        · decide
        · decide
      unfold parsePublish
      rw [strchr_append (hhost.notMem rfl)]
      simp only [strchr_append (hcontainer.notMem (c := '/') rfl), hhost.atoi_eq,
        hcontainer.atoi_eq, strncpy_eq_self hshort]

theorem PublishText.host {arg : CStr} {pm : PortMapping} (h : PublishText arg pm) :
    ∃ host rest, strchr arg ':' = some (host, rest) ∧ IsPort host pm.hostPort := by
  cases h with
  | plain hhost _ => exact ⟨_, _, strchr_append (hhost.notMem rfl), hhost⟩
  | withProtocol hhost _ _ => exact ⟨_, _, strchr_append (hhost.notMem rfl), hhost⟩

theorem PublishText.colon {arg : CStr} {pm : PortMapping} (h : PublishText arg pm) : ':' ∈ arg := by
  cases h <;> simp

/-! ### What is recorded -/

/-- One option `-p`: a mapping is recorded exactly when the argument denotes it, and an argument
that denotes none leaves everything as it was. -/
structure PublishExact (m : Machine) (st : RunState) (arg : CStr) : Prop where
  records : ∀ pm, (∃ st', runBody m st (.opt 'p' (some arg)) = .ok st' ∧
    st'.config.network.ports = st.config.network.ports ++ [pm]) ↔ PublishText arg pm
  rejects : (∀ pm, ¬PublishText arg pm) → runBody m st (.opt 'p' (some arg)) = .ok st

def RunState.setPorts (st : RunState) (ports : List PortMapping) : RunState :=
  { st with config := { st.config with network := { st.config.network with ports := ports } } }

theorem runBody_publish (m : Machine) (st : RunState) (arg : CStr) :
    runBody m st (.opt 'p' (some arg)) =
      .ok (st.setPorts (collect maxPorts parsePublish st.config.network.ports arg)) := by
  show Except.ok { st with config := { st.config with
    network := applyOption st.config.network (.publish arg) } } = _
  rw [applyOption_publish]
  rfl

/-- What is recorded, in terms of what the handler reads. -/
theorem records_iff {m : Machine} {st : RunState} {arg : CStr} {pm : PortMapping} :
    (∃ st', runBody m st (.opt 'p' (some arg)) = .ok st' ∧
      st'.config.network.ports = st.config.network.ports ++ [pm]) ↔
      st.config.network.ports.length < maxPorts ∧ parsePublish arg = some pm := by
  rw [runBody_publish]
  have hsame : st.config.network.ports ≠ st.config.network.ports ++ [pm] := by simp
  constructor
  · rintro ⟨st', hst', hports⟩
    obtain rfl := Except.ok.inj hst'
    change collect maxPorts parsePublish st.config.network.ports arg = _ at hports
    unfold collect at hports
    by_cases hroom : st.config.network.ports.length < maxPorts
    · rw [if_pos hroom] at hports
      cases hpm : parsePublish arg with
      | none => simp [hpm] at hports
      | some pm' =>
          rw [hpm] at hports
          exact ⟨hroom, congrArg some (by simpa using hports)⟩
    · rw [if_neg hroom] at hports
      exact absurd hports hsame
  · rintro ⟨hroom, hpm⟩
    refine ⟨_, rfl, ?_⟩
    show collect maxPorts parsePublish st.config.network.ports arg = _
    unfold collect
    rw [if_pos hroom, hpm]
    rfl

/-- **The texts of the grammar are exactly what is recorded, if and only if the array has room and
the text is one of them or has no colon, or the array is full and the text is not one of them.** -/
theorem publishExact_iff (m : Machine) (st : RunState) (arg : CStr) :
    PublishExact m st arg ↔
      if st.config.network.ports.length < maxPorts then (∃ pm, PublishText arg pm) ∨ ':' ∉ arg
      else ∀ pm, ¬PublishText arg pm := by
  by_cases hroom : st.config.network.ports.length < maxPorts
  · rw [if_pos hroom]
    constructor
    · intro h
      by_cases hcolon : ':' ∈ arg
      · obtain ⟨pm, hpm⟩ := Option.ne_none_iff_exists'.mp (parsePublish_ne_none.mpr hcolon)
        exact Or.inl ⟨pm, (h.records pm).mp (records_iff.mpr ⟨hroom, hpm⟩)⟩
      · exact Or.inr hcolon
    · rintro (⟨pm, hpm⟩ | hcolon)
      · refine ⟨fun pm' => ?_, fun hno => absurd hpm (hno pm)⟩
        rw [records_iff, hpm.parse_eq]
        constructor
        · rintro ⟨-, heq⟩
          obtain rfl := Option.some.inj heq
          exact hpm
        · intro hpm'
          exact ⟨hroom, hpm.parse_eq.symm.trans hpm'.parse_eq⟩
      · have hnone : parsePublish arg = none := by
          by_contra hne
          exact hcolon (parsePublish_ne_none.mp hne)
        refine ⟨fun pm => ?_, fun _ => ?_⟩
        · rw [records_iff, hnone]
          exact ⟨fun h => absurd h.2 (by simp), fun hpm => absurd hpm.colon hcolon⟩
        · rw [runBody_publish]
          simp [collect, hnone, RunState.setPorts]
  · rw [if_neg hroom]
    constructor
    · intro h pm hpm
      exact hroom (records_iff.mp ((h.records pm).mpr hpm)).1
    · intro hno
      refine ⟨fun pm => ?_, fun _ => ?_⟩
      · rw [records_iff]
        exact ⟨fun h => absurd h.1 hroom, fun hpm => absurd hpm (hno pm)⟩
      · rw [runBody_publish]
        simp [collect, hroom, RunState.setPorts]

/-- `-p 127.0.0.1:8080:80` is recorded as host port 127 and container port 8080. -/
theorem address_prefix_recorded :
    ¬PublishExact ⟨[], 0, 0, 0, .ok, 0⟩ (runStart ⟨[], 0, 0, 0, .ok, 0⟩) "127.0.0.1:8080:80".toList := by
  intro h
  have hrecorded := (h.records ⟨127, 8080, "tcp".toList⟩).mp
    (records_iff.mpr ⟨by decide, by decide⟩)
  obtain ⟨host, rest, hcut, hport⟩ := hrecorded.host
  obtain ⟨rfl, -⟩ : "127.0.0.1".toList = host ∧ "8080:80".toList = rest := by
    simpa using (show strchr "127.0.0.1:8080:80".toList ':' =
      some ("127.0.0.1".toList, "8080:80".toList) by decide).symm.trans hcut
  exact absurd (hport.digits '.' (by decide)) (by decide)

end Cruntime
