/-
What the shell makes of the command strings.

`NetCmd.words` are the words of a command's template with the fields put in, and
`NetCmd.redirects` its redirections; `WellFormed` says that the string handed to
`system()` is that simple command.  A string that is not cut to the buffer is one
exactly when each word is a word for the shell, so what is left to ask of a field is
the one predicate `Shell.IsWord`.
-/
import Cruntime.Lib.Shell
import Mathlib.Tactic.IntervalCases
import Cruntime.Net.Command

namespace Cruntime

open Shell (IsWord unwords)

def literals (ws : List String) : List CStr := ws.map String.toList

/-- The words of a rule specification. -/
def Rule.words : Rule → List CStr
  | .masquerade subnet bridge =>
      ["-s".toList, subnet, "!".toList, "-o".toList, bridge, "-j".toList, "MASQUERADE".toList]
  | .acceptBridge bridge =>
      ["-i".toList, bridge, "-o".toList, bridge, "-j".toList, "ACCEPT".toList]
  | .acceptReplies bridge =>
      ["-o".toList, bridge] ++
        literals ["-m", "conntrack", "--ctstate", "RELATED,ESTABLISHED", "-j", "ACCEPT"]
  | .dnat protocol hostPort ip containerPort =>
      ["-p".toList, protocol, "--dport".toList, decimal hostPort] ++
        literals ["-j", "DNAT", "--to-destination"] ++ [ip ++ ':' :: decimal containerPort]
  | .acceptPort protocol ip containerPort =>
      ["-p".toList, protocol, "-d".toList, ip, "--dport".toList, decimal containerPort,
        "-j".toList, "ACCEPT".toList]
  | .other _ spec => [spec]

/-- `-t nat` where the template has it. -/
def Chain.tableWords : Chain → List CStr
  | .forward => []
  | _ => literals ["-t", "nat"]

/-- The words of a command's template, its fields put in. -/
def NetCmd.words : NetCmd → List CStr
  | .linkShow dev => literals ["ip", "link", "show"] ++ [dev]
  | .linkAddBridge name => literals ["ip", "link", "add", "name"] ++ name :: literals ["type", "bridge"]
  | .addrAdd addr pfx dev =>
      literals ["ip", "addr", "add"] ++ [addr ++ '/' :: pfx, "dev".toList, dev]
  | .linkUp dev => literals ["ip", "link", "set"] ++ [dev, "up".toList]
  | .linkDown dev => literals ["ip", "link", "set"] ++ [dev, "down".toList]
  | .sysctlForward => literals ["sysctl", "-w", "net.ipv4.ip_forward=1"]
  | .appendRule r =>
      "iptables".toList :: r.chain.tableWords ++ "-A".toList :: r.chain.name :: r.words
  | .deleteRule r =>
      "iptables".toList :: r.chain.tableWords ++ "-D".toList :: r.chain.name :: r.words
  | .linkDeleteBridge name =>
      literals ["ip", "link", "delete"] ++ name :: literals ["type", "bridge"]
  | .linkAddVeth name peer =>
      literals ["ip", "link", "add"] ++ name :: literals ["type", "veth", "peer", "name"] ++ [peer]
  | .linkSetMaster dev master =>
      literals ["ip", "link", "set"] ++ [dev, "master".toList, master]
  | .linkSetNetns dev pid => literals ["ip", "link", "set"] ++ [dev, "netns".toList, decimalInt pid]
  | .nsAddrAdd pid addr dev =>
      literals ["nsenter", "-t"] ++ decimalInt pid :: literals ["-n", "ip", "addr", "add"] ++
        [addr, "dev".toList, dev]
  | .nsLinkUp pid dev =>
      literals ["nsenter", "-t"] ++ decimalInt pid :: literals ["-n", "ip", "link", "set"] ++
        [dev, "up".toList]
  | .nsRouteAdd pid gateway =>
      literals ["nsenter", "-t"] ++ decimalInt pid ::
        literals ["-n", "ip", "route", "add", "default", "via"] ++ [gateway]
  | .linkDelete dev => literals ["ip", "link", "delete"] ++ [dev]

/-- The redirections of a template, as it writes them. -/
def NetCmd.tail : NetCmd → CStr
  | .linkShow _ => " >/dev/null 2>&1".toList
  | .sysctlForward => " >/dev/null 2>&1".toList
  | .linkDelete _ => " 2>/dev/null".toList
  | _ => []

/-- The redirections of a template. -/
def NetCmd.redirects : NetCmd → List Shell.Redirect
  | .linkShow _ =>
      [⟨none, ">".toList, "/dev/null".toList⟩, ⟨some "2".toList, ">&".toList, "1".toList⟩]
  | .sysctlForward =>
      [⟨none, ">".toList, "/dev/null".toList⟩, ⟨some "2".toList, ">&".toList, "1".toList⟩]
  | .linkDelete _ => [⟨some "2".toList, ">".toList, "/dev/null".toList⟩]
  | _ => []

/-- The fields of a rule, as text. -/
def Rule.fields : Rule → List CStr
  | .masquerade subnet bridge => [subnet, bridge]
  | .acceptBridge bridge => [bridge]
  | .acceptReplies bridge => [bridge]
  | .dnat protocol hostPort ip containerPort =>
      [protocol, decimal hostPort, ip, decimal containerPort]
  | .acceptPort protocol ip containerPort => [protocol, ip, decimal containerPort]
  | .other _ spec => [spec]

/-- The fields of a command, as text; an address and its prefix length count as one. -/
def NetCmd.fields : NetCmd → List CStr
  | .linkShow dev => [dev]
  | .linkAddBridge name => [name]
  | .addrAdd addr pfx dev => [addr ++ '/' :: pfx, dev]
  | .linkUp dev => [dev]
  | .linkDown dev => [dev]
  | .sysctlForward => []
  | .appendRule r => r.fields
  | .deleteRule r => r.fields
  | .linkDeleteBridge name => [name]
  | .linkAddVeth name peer => [name, peer]
  | .linkSetMaster dev master => [dev, master]
  | .linkSetNetns dev pid => [dev, decimalInt pid]
  | .nsAddrAdd pid addr dev => [decimalInt pid, addr, dev]
  | .nsLinkUp pid dev => [decimalInt pid, dev]
  | .nsRouteAdd pid gateway => [decimalInt pid, gateway]
  | .linkDelete dev => [dev]

/-- The string of the command is its template's simple command, each field one word or
the part of one that the template makes it. -/
def WellFormed (c : NetCmd) : Prop := Shell.parse c.text = some ⟨c.words, c.redirects⟩

instance (c : NetCmd) : Decidable (WellFormed c) := inferInstanceAs (Decidable (_ = _))

theorem NetCmd.words_ne_nil (c : NetCmd) : c.words ≠ [] := by
  cases c <;> simp [NetCmd.words, literals]

/-- A rule specification is its words with a blank before each. -/
theorem Rule.spec_eq (r : Rule) : r.spec = r.words.flatMap fun w => ' ' :: w := by
  cases r
  case other c spec => exact (List.append_nil (' ' :: spec)).symm
  all_goals
    unfold Rule.spec Rule.words
    simp only [literals, List.map_cons, List.map_nil, List.cons_append, List.nil_append,
      List.flatMap_cons, List.flatMap_nil, List.append_assoc, List.append_nil]
    rfl

/-- The two `iptables` templates, which differ in the flag. -/
theorem Rule.command_eq (r : Rule) (flag : CStr) :
    "iptables ".toList ++ r.chain.table ++ (flag ++ [' ']) ++ r.chain.name ++ r.spec
      = unwords ("iptables".toList :: r.chain.tableWords ++ flag :: r.chain.name :: r.words) := by
  rw [r.spec_eq]
  cases r.chain
  all_goals
    simp only [Chain.table, Chain.tableWords, literals, unwords, List.map_cons, List.map_nil,
      List.cons_append, List.nil_append, List.flatMap_cons, List.append_assoc, List.append_nil]
    rfl

/-- A template is its words with a blank between them, and its redirections. -/
theorem NetCmd.format_eq (c : NetCmd) : c.format = unwords c.words ++ c.tail := by
  cases c
  case appendRule r => exact (r.command_eq "-A".toList).trans (List.append_nil _).symm
  case deleteRule r => exact (r.command_eq "-D".toList).trans (List.append_nil _).symm
  all_goals
    unfold NetCmd.format NetCmd.words NetCmd.tail
    simp only [literals, unwords, List.map_cons, List.map_nil, List.cons_append, List.nil_append,
      List.flatMap_cons, List.flatMap_nil, List.append_assoc, List.append_nil]
    rfl

/-- The tail of a template lexes to its redirections. -/
theorem NetCmd.tail_lex (c : NetCmd) :
    ∃ rest ts, c.tail ++ [' '] = ' ' :: rest ∧ Shell.lexFrom .gap rest = some (ts, .gap) ∧
      Shell.parseTokens ts = some ⟨[], c.redirects⟩ := by
  cases c
  case linkShow => exact ⟨">/dev/null 2>&1 ".toList, _, rfl, rfl, rfl⟩
  case sysctlForward => exact ⟨">/dev/null 2>&1 ".toList, _, rfl, rfl, rfl⟩
  case linkDelete => exact ⟨"2>/dev/null ".toList, _, rfl, rfl, rfl⟩
  all_goals exact ⟨[], [], rfl, rfl, rfl⟩

/-- **A command that fits its buffer is well formed exactly when each of its words is a
word for the shell.** -/
theorem wellFormed_iff {c : NetCmd} (hfit : c.format.length < 512) :
    WellFormed c ↔ ∀ w ∈ c.words, IsWord w := by
  obtain ⟨rest, ts, htail, hrest, hts⟩ := c.tail_lex
  unfold WellFormed NetCmd.text
  rw [snprintf_eq_self hfit, c.format_eq]
  exact Shell.parse_unwords_iff c.words_ne_nil htail hrest hts

/-! ### Fields -/

theorem Rule.spec_length_le {r : Rule} (h : ∀ f ∈ r.fields, f.length ≤ 63) :
    r.spec.length ≤ 320 := by
  cases r
  all_goals
    unfold Rule.fields at h
    unfold Rule.spec
    simp at h ⊢
    omega

/-- The two `iptables` templates with such fields. -/
theorem Rule.command_length_lt {r : Rule} (h : ∀ f ∈ r.fields, f.length ≤ 63) {flag : CStr}
    (hflag : flag.length ≤ 3) :
    ("iptables ".toList ++ r.chain.table ++ flag ++ r.chain.name ++ r.spec).length < 512 := by
  have hspec := r.spec_length_le h
  have hchain : r.chain.table.length ≤ 7 ∧ r.chain.name.length ≤ 11 := by
    cases r.chain <;> decide
  simp
  omega

/-- No template with fields of at most 63 characters is cut to the buffer. -/
theorem NetCmd.format_length_lt {c : NetCmd} (h : ∀ f ∈ c.fields, f.length ≤ 63) :
    c.format.length < 512 := by
  cases c
  case appendRule r => exact @Rule.command_length_lt r h "-A ".toList (by decide)
  case deleteRule r => exact @Rule.command_length_lt r h "-D ".toList (by decide)
  case sysctlForward => decide
  all_goals
    unfold NetCmd.fields at h
    unfold NetCmd.format
    simp at h ⊢
    omega

/-- Characters that mean nothing to the shell wherever they stand. -/
def plainChars : CStr := "0123456789abcdefvth./:-".toList

theorem continues_of_plain {c : Char} (h : c ∈ plainChars) :
    Shell.continues c = true ∧ IsWord [c] := by
  have hall : plainChars.all (fun c => Shell.continues c = true ∧ IsWord [c]) = true := by decide
  exact of_decide_eq_true (List.all_eq_true.mp hall c h)

/-- A text that is checked to be plain. -/
theorem plain_of_all {s : CStr} (hs : s.all plainChars.contains = true) {c : Char} (h : c ∈ s) :
    c ∈ plainChars :=
  List.contains_iff_mem.mp (List.all_eq_true.mp hs c h)

theorem isWord_of_plain {w : CStr} (hne : w ≠ []) (h : ∀ c ∈ w, c ∈ plainChars) : IsWord w := by
  cases w with
  | nil => exact absurd rfl hne
  | cons c w =>
      exact Shell.isWord_of_continues (continues_of_plain (h c (by simp))).2
        fun d hd => (continues_of_plain (h d (by simp [hd]))).1

theorem isDigit_plain {c : Char} (h : c.isDigit = true) : c ∈ plainChars :=
  forall_isDigit (P := fun c => c ∈ plainChars) (by decide) h

theorem decimal_plain {n : Nat} {c : Char} (h : c ∈ decimal n) : c ∈ plainChars :=
  isDigit_plain (isDigit_of_mem_decimal h)

theorem isWord_decimal (n : Nat) : IsWord (decimal n) :=
  isWord_of_plain (decimal_ne_nil n) fun _ h => decimal_plain h

theorem isWord_decimalInt (n : Int) : IsWord (decimalInt n) := by
  cases n with
  | ofNat n => exact isWord_decimal n
  | negSucc n =>
      refine isWord_of_plain (by simp [decimalInt]) fun c hc => ?_
      rcases List.mem_cons.mp hc with rfl | hc
      · decide
      · exact decimal_plain hc

theorem inetNtop_plain {a : Addr} {c : Char} (h : c ∈ inetNtop a) : c ∈ plainChars := by
  rcases mem_inetNtop h with hc | rfl
  · exact isDigit_plain hc
  · decide

theorem Rule.isWord_words {r : Rule} (h : ∀ f ∈ r.fields, IsWord f) : ∀ w ∈ r.words, IsWord w := by
  cases r
  case dnat protocol hostPort ip containerPort =>
      have hport : IsWord (ip ++ ':' :: decimal containerPort) := by
        refine (h ip (by simp [Rule.fields])).append fun c hc => ?_
        rcases List.mem_cons.mp hc with rfl | hc
        · decide
        · exact (continues_of_plain (decimal_plain hc)).1
      unfold Rule.fields at h
      unfold Rule.words
      simp only [literals, List.map_cons, List.map_nil, List.cons_append, List.nil_append,
        List.forall_mem_cons] at h ⊢
      simp +decide [h, hport]
  all_goals
    unfold Rule.fields at h
    unfold Rule.words
    simp only [literals, List.map_cons, List.map_nil, List.cons_append, List.nil_append,
      List.forall_mem_cons] at h ⊢
    simp +decide [h]

/-- The words of the two `iptables` templates. -/
theorem Rule.isWord_command {r : Rule} (h : ∀ f ∈ r.fields, IsWord f) {flag : CStr}
    (hflag : IsWord flag) :
    ∀ w ∈ "iptables".toList :: r.chain.tableWords ++ flag :: r.chain.name :: r.words, IsWord w := by
  have hchain : (∀ w ∈ r.chain.tableWords, IsWord w) ∧ IsWord r.chain.name := by
    cases r.chain <;> decide
  simp only [List.cons_append, List.forall_mem_cons, List.forall_mem_append]
  exact ⟨by decide, hchain.1, hflag, hchain.2, r.isWord_words h⟩

/-- The words of a command are its literals and its fields, and an address with a port. -/
theorem NetCmd.isWord_words {c : NetCmd} (h : ∀ f ∈ c.fields, IsWord f) :
    ∀ w ∈ c.words, IsWord w := by
  cases c
  case appendRule r => exact @Rule.isWord_command r h "-A".toList (by decide)
  case deleteRule r => exact @Rule.isWord_command r h "-D".toList (by decide)
  all_goals
    unfold NetCmd.fields at h
    unfold NetCmd.words
    simp only [literals, List.map_cons, List.map_nil, List.cons_append, List.nil_append,
      List.forall_mem_cons] at h ⊢
    simp +decide [h]

/-- **A command whose fields are words that fit their buffers is well formed.** -/
theorem wellFormed_of_fields {c : NetCmd} (h : ∀ f ∈ c.fields, f.length ≤ 63 ∧ IsWord f) :
    WellFormed c :=
  (wellFormed_iff (NetCmd.format_length_lt fun f hf => (h f hf).1)).mpr
    (NetCmd.isWord_words fun f hf => (h f hf).2)

end Cruntime
