/-
IPv4 addresses and their text.

`inetPton` reads a dotted quad the way the C library does: one pass over the bytes
with the octet being read and the ones already read, refusing a leading zero, an
octet above 255 and any count of octets but four.  `inetNtop` prints one.  The
result that matters to a caller is that printing loses nothing: `inetPton` reads
back what `inetNtop` printed, so two addresses with one text are equal.

An address of an interface comes with the length of its prefix, which says what
other addresses are on the same link.
-/
import Cruntime.Lib.CText

namespace Cruntime

/-- An address in host byte order, with the arithmetic of `uint32_t`. -/
abbrev Addr := BitVec 32

/-! ### Reading a dotted quad -/

/-- One digit of an octet: a leading zero and a value above 255 are refused. -/
def octetStep (octet : Option Nat) (c : Char) : Option (Option Nat) :=
  match octet with
  | none => some (some (c.toNat - 48))
  | some v =>
      if v = 0 then none
      else if v * 10 + (c.toNat - 48) > 255 then none
      else some (some (v * 10 + (c.toNat - 48)))

/-- One byte of the text: the octets read so far, and the one being read. -/
def ptonStep (st : List Nat × Option Nat) (c : Char) : Option (List Nat × Option Nat) :=
  if c.isDigit then (octetStep st.2 c).map fun octet => (st.1, octet)
  else match st.2 with
    | some v => if c = '.' ∧ st.1.length < 3 then some (st.1 ++ [v], none) else none
    | none => none

/-- The address whose octets these are, the first one highest. -/
def ofOctets (octets : List Nat) : Addr :=
  BitVec.ofNat 32 (octets.foldl (fun v o => v * 256 + o) 0)

/-- `inet_pton(AF_INET, ..)`; on `none` the call leaves the address as it was. -/
def inetPton (s : CStr) : Option Addr :=
  match s.foldlM ptonStep ([], none) with
  | some (octets, some v) => if octets.length = 3 then some (ofOctets (octets ++ [v])) else none
  | _ => none

/-! ### Printing one -/

/-- The octets of an address, the highest first. -/
def octets (a : Addr) : List Nat :=
  [a.toNat / 2 ^ 24, a.toNat / 2 ^ 16 % 256, a.toNat / 2 ^ 8 % 256, a.toNat % 256]

/-- `inet_ntop(AF_INET, ..)`. -/
def inetNtop (a : Addr) : CStr :=
  decimal (a.toNat / 2 ^ 24) ++ '.' :: decimal (a.toNat / 2 ^ 16 % 256) ++
    '.' :: decimal (a.toNat / 2 ^ 8 % 256) ++ '.' :: decimal (a.toNat % 256)

/-! ### Printing and reading back -/

private theorem octetStep_decimal : ∀ v : Fin 256,
    (decimal v).foldlM octetStep none = some (some v.val) := by
  decide +kernel

private theorem foldlM_digits (done : List Nat) :
    ∀ (s : CStr) (octet : Option Nat), (∀ c ∈ s, c.isDigit = true) →
      s.foldlM ptonStep (done, octet)
        = (s.foldlM octetStep octet).map fun o => (done, o) := by
  intro s
  induction s with
  | nil => intro octet _; rfl
  | cons c rest ih =>
      intro octet hall
      have hc : c.isDigit = true := hall c (by simp)
      rw [List.foldlM_cons, List.foldlM_cons]
      unfold ptonStep
      rw [if_pos hc]
      cases hoct : octetStep octet c with
      | none => rfl
      | some o => exact ih o fun x hx => hall x (by simp [hx])

private theorem foldlM_octet (done : List Nat) {v : Nat} (hv : v < 256) :
    (decimal v).foldlM ptonStep (done, none) = some (done, some v) := by
  rw [foldlM_digits done _ none fun c hc => isDigit_of_mem_decimal hc,
    octetStep_decimal ⟨v, hv⟩]
  rfl

private theorem ptonStep_dot {done : List Nat} (v : Nat) (h : done.length < 3) :
    ptonStep (done, some v) '.' = some (done ++ [v], none) := by
  simp [ptonStep, h]

private theorem ofOctets_octets (a : Addr) : ofOctets (octets a) = a := by
  have ha : a.toNat < 2 ^ 32 := a.isLt
  have hval : (((0 * 256 + a.toNat / 2 ^ 24) * 256 + a.toNat / 2 ^ 16 % 256) * 256
      + a.toNat / 2 ^ 8 % 256) * 256 + a.toNat % 256 = a.toNat := by omega
  simp only [ofOctets, octets, List.foldl_cons, List.foldl_nil]
  rw [hval, BitVec.ofNat_toNat, BitVec.setWidth_eq]

/-- **Printing an address loses nothing.** -/
theorem inetPton_inetNtop (a : Addr) : inetPton (inetNtop a) = some a := by
  have ha : a.toNat < 2 ^ 32 := a.isLt
  have h3 : a.toNat / 2 ^ 24 < 256 := by omega
  have hread : (inetNtop a).foldlM ptonStep ([], none)
      = some ([a.toNat / 2 ^ 24, a.toNat / 2 ^ 16 % 256, a.toNat / 2 ^ 8 % 256],
          some (a.toNat % 256)) := by
    simp only [inetNtop, List.append_assoc, List.cons_append, List.foldlM_append,
      List.foldlM_cons, foldlM_octet _ h3, foldlM_octet _ (Nat.mod_lt _ (by omega : 0 < 256)),
      ptonStep_dot, Option.bind_eq_bind, Option.bind_some, List.nil_append, List.length_nil,
      List.length_cons, Nat.zero_add, Nat.reduceAdd, Nat.reduceLT, Nat.ofNat_pos]
  unfold inetPton
  rw [hread]
  exact congrArg some (ofOctets_octets a)

/-- The text of an address is made of digits and dots. -/
theorem mem_inetNtop {a : Addr} {c : Char} (h : c ∈ inetNtop a) : c.isDigit = true ∨ c = '.' := by
  simp only [inetNtop, List.mem_append, List.mem_cons] at h
  rcases h with ((h | rfl | h) | rfl | h) | rfl | h
  all_goals first
    | exact Or.inr rfl
    | exact Or.inl (isDigit_of_mem_decimal h)

theorem inetNtop_length_le (a : Addr) : (inetNtop a).length ≤ 15 := by
  have ha : a.toNat < 2 ^ 32 := a.isLt
  have h3 := decimal_length_le (n := a.toNat / 2 ^ 24) (k := 3) (by omega) (by omega)
  have h2 := decimal_length_le (n := a.toNat / 2 ^ 16 % 256) (k := 3) (by omega) (by omega)
  have h1 := decimal_length_le (n := a.toNat / 2 ^ 8 % 256) (k := 3) (by omega) (by omega)
  have h0 := decimal_length_le (n := a.toNat % 256) (k := 3) (by omega) (by omega)
  simp only [inetNtop, List.length_append, List.length_cons]
  omega

/-! ### Addresses with a prefix -/

/-- A prefix length as it is written: at most 32, in decimal. -/
def readPrefix (s : CStr) : Option Nat := (List.range 33).find? fun p => decimal p == s

/-- An address and the length of its prefix. -/
structure Cidr where
  addr : Addr
  len : Nat
deriving DecidableEq

/-- `A/P`, or `A` alone for `A/32`. -/
def readCidr (text : CStr) : Option Cidr :=
  match strchr text '/' with
  | none => (inetPton text).map fun a => ⟨a, 32⟩
  | some (network, pfx) =>
      (inetPton network).bind fun a => (readPrefix pfx).map fun p => ⟨a, p⟩

/-- How many addresses share the prefix. -/
def Cidr.size (c : Cidr) : Nat := 2 ^ (32 - c.len)

/-- Whether the neighbours get a route: not in a subnet that begins at `0.0.0.0`, and not from an
address that no host has, a multicast one or `255.255.255.255`. -/
def Cidr.routed (c : Cidr) : Bool :=
  c.addr.toNat / c.size ≠ 0 && c.addr.toNat / 2 ^ 28 ≠ 14 && c.addr.toNat + 1 ≠ 2 ^ 32

/-- The addresses a neighbour can have: where there is a route to them, all that share the prefix
except the broadcast address; and in any case the address itself. -/
def Cidr.onLink (c : Cidr) (a : Addr) : Bool :=
  a = c.addr || (c.routed && a.toNat / c.size = c.addr.toNat / c.size &&
    (31 ≤ c.len || a.toNat % c.size ≠ c.size - 1))

theorem inetNtop_ne_nil (a : Addr) : inetNtop a ≠ [] := by
  simp [inetNtop]

theorem slash_notMem_inetNtop (a : Addr) : '/' ∉ inetNtop a := by
  intro h
  rcases mem_inetNtop h with h | h
  · exact absurd h (by decide)
  · exact absurd h (by decide)

theorem readCidr_append {network pfx : CStr} {a : Addr} {p : Nat} (hslash : '/' ∉ network)
    (ha : inetPton network = some a) (hp : readPrefix pfx = some p) :
    readCidr (network ++ '/' :: pfx) = some ⟨a, p⟩ := by
  unfold readCidr
  rw [strchr_append hslash]
  show ((inetPton network).bind fun a => (readPrefix pfx).map fun p => _) = _
  rw [ha, hp]
  rfl

/-- A printed address with a prefix is read back. -/
theorem readCidr_inetNtop (a : Addr) {pfx : CStr} {p : Nat} (hp : readPrefix pfx = some p) :
    readCidr (inetNtop a ++ '/' :: pfx) = some ⟨a, p⟩ :=
  readCidr_append (slash_notMem_inetNtop a) (inetPton_inetNtop a) hp

end Cruntime
