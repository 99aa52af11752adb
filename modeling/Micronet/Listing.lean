import Mathlib.Data.List.Basic
import Micronet.DottedQuad

/-!
# Reading the listing of addresses

`ip -4 -o addr show` prints one address a line, and the code takes the word after the first
`inet ` for it.  The name of the interface stands before that, so a name that ends in `inet`
is taken for the mark, and no address is found on its lines.
-/
namespace Micronet
open RustText

/-! ## What the code reads -/

def inetWord : List Char := ['i', 'n', 'e', 't']

/-- What stands before the address. -/
def inetMark : List Char := inetWord ++ [' ']

def inetToken (line : List Char) : Option (List Char) := (secondPart inetMark line).bind firstWord

/-- `parse_first_inet_cidr`; `isNet` tells whether a text parses as an `Ipv4Net`. -/
def parseFirstInetCidr (isNet : List Char → Bool) (ipStdout : List Char) : Option (List Char) :=
  let found := (lines ipStdout).filterMap fun line => (inetToken line).filter isNet
  (found.find? fun s => !"169.254.".toList.isPrefixOf s).or found.head?

/-- The address of a text `a.b.c.d/nn`. -/
def cidrIpv4 (cidr : List Char) : Option Ipv4Addr := (cidr.splitOn '/').head?.bind Ipv4Addr.parse

def stdoutHasIpv4 (ipStdout : List Char) (ip : Ipv4Addr) : Bool :=
  (lines ipStdout).any fun line =>
    (inetToken line).any fun token => (ip.display.toList ++ ['/']).isPrefixOf token

/-! ## The listing -/

/-- A name that Linux takes for an interface. -/
structure IfName where
  chars : List Char
  ne_nil : chars ≠ []
  /-- 15 bytes and a NUL fit into `IFNAMSIZ`. -/
  byteLen_le : byteLen chars ≤ 15
  /-- What the kernel refuses in a name. -/
  not_space : ∀ c ∈ [' ', '\t', '\n', '\x0b', '\x0c', '\r'], c ∉ chars
  not_sep : '/' ∉ chars ∧ ':' ∉ chars

/-- One address of the listing. -/
structure Entry where
  index : Nat
  name : IfName
  net : Ipv4Net
  /-- What is printed before `scope` and after it. -/
  extra : List Char
  scope : List Char
  one_line : '\n' ∉ extra ∧ '\n' ∉ scope

namespace Entry

/-- The rest of the line, after the prefix. -/
def tail (e : Entry) : List Char := e.extra ++ "scope ".toList ++ e.scope ++ e.name.chars

def line (e : Entry) : List Char :=
  Nat.toDigits 10 e.index ++ ": ".toList ++ e.name.chars ++ "    inet ".toList ++
    e.net.display.toList ++ ' ' :: e.tail

end Entry

def listing (es : List Entry) : List Char := es.flatMap fun e => e.line ++ ['\n']

/-- The name is taken for the mark. -/
def IfName.EndsInet (n : IfName) : Prop := inetWord <:+ n.chars

instance (n : IfName) : Decidable n.EndsInet := inferInstanceAs (Decidable (_ <:+ _))

/-! ## What is found on a line -/

section Line
variable {e : Entry} {s t : List Char} {p : List Char × List Char}

theorem secondPart_of_splitOnce {pat : List Char} (h : splitOnce pat s = some p) :
    secondPart pat s = some (((splitOnce pat p.2).map Prod.fst).getD p.2) := by
  rw [secondPart, h]
  rfl

theorem not_suffix_concat {w : List Char} {c : Char} (hc : c ≠ 't') : ¬ inetWord <:+ w ++ [c] := by
  rintro ⟨u, hu⟩
  have hlast := congrArg List.getLast? hu
  rw [List.getLast?_concat, List.getLast?_append] at hlast
  exact hc (Option.some.inj hlast).symm

/-- A word that is not taken for the mark. -/
theorem splitOnce_mark_word {w : List Char} (hw : ' ' ∉ w) (h : ¬ inetWord <:+ w) :
    splitOnce inetMark (w ++ ' ' :: s) =
      (splitOnce inetMark s).map fun p => (w ++ ' ' :: p.1, p.2) :=
  splitOnce_word_of_not_suffix (by decide) hw h

theorem splitOnce_mark {w : List Char} (hw : ' ' ∉ w) :
    splitOnce inetMark (w ++ inetWord ++ ' ' :: s) = some (w, s) :=
  splitOnce_word (by decide) hw

/-- The blanks before the mark. -/
theorem splitOnce_blanks :
    splitOnce inetMark ("   inet ".toList ++ s) = some ("   ".toList, s) := by
  have hblank : ∀ s, splitOnce inetMark (' ' :: s) =
      (splitOnce inetMark s).map fun p => (' ' :: p.1, p.2) := fun s =>
    @splitOnce_mark_word s [] (by decide) (by decide)
  have hmark : splitOnce inetMark (inetWord ++ ' ' :: s) = some ([], s) :=
    @splitOnce_mark s [] (by decide)
  show splitOnce inetMark (' ' :: ' ' :: ' ' :: (inetWord ++ ' ' :: s)) = _
  rw [hblank, hblank, hblank, hmark]
  rfl

/-- The index and the colon are passed over. -/
theorem splitOnce_index (i : Nat) :
    splitOnce inetMark (Nat.toDigits 10 i ++ ": ".toList ++ s) =
      (splitOnce inetMark s).map fun p => (Nat.toDigits 10 i ++ ": ".toList ++ p.1, p.2) := by
  have hblank : ' ' ∉ Nat.toDigits 10 i ++ [':'] := by
    rw [List.mem_append, not_or]
    exact ⟨fun h => absurd ((toDigits_isNumeral i).digits ' ' h) (by decide), by decide⟩
  have hword := @splitOnce_mark_word s _ hblank (not_suffix_concat (by decide))
  have hcons : ∀ r : List Char, Nat.toDigits 10 i ++ ": ".toList ++ r =
      Nat.toDigits 10 i ++ [':'] ++ ' ' :: r := fun r => by simp
  simp only [hcons]
  exact hword

/-- The name is passed over with the mark after it, unless it ends in the mark's word. -/
theorem secondPart_line :
    secondPart inetMark e.line =
      some (if e.name.EndsInet then "   ".toList
        else ((splitOnce inetMark (e.net.display.toList ++ ' ' :: e.tail)).map Prod.fst).getD
          (e.net.display.toList ++ ' ' :: e.tail)) := by
  have hline : e.line = Nat.toDigits 10 e.index ++ ": ".toList ++ (e.name.chars ++ ' ' ::
      ("   inet ".toList ++ (e.net.display.toList ++ ' ' :: e.tail))) := by
    simp [Entry.line]
  have hspace : ' ' ∉ e.name.chars := e.name.not_space ' ' (by decide)
  by_cases hend : e.name.EndsInet
  · obtain ⟨w, hw⟩ := hend
    have hwspace : ' ' ∉ w := fun h => hspace (hw ▸ List.mem_append_left _ h)
    have hsplit : splitOnce inetMark e.line = some (Nat.toDigits 10 e.index ++ ": ".toList ++ w,
        "   inet ".toList ++ (e.net.display.toList ++ ' ' :: e.tail)) := by
      rw [hline, splitOnce_index, ← hw, splitOnce_mark hwspace]
      rfl
    rw [secondPart_of_splitOnce hsplit, splitOnce_blanks, if_pos ⟨w, hw⟩]
    rfl
  · have hsplit : splitOnce inetMark e.line =
        some (Nat.toDigits 10 e.index ++ ": ".toList ++ (e.name.chars ++ ' ' :: "   ".toList),
          e.net.display.toList ++ ' ' :: e.tail) := by
      rw [hline, splitOnce_index, splitOnce_mark_word hspace hend, splitOnce_blanks]
      rfl
    rw [secondPart_of_splitOnce hsplit, if_neg hend]

theorem display_not_suffix (n : Ipv4Net) : ¬ inetWord <:+ n.display.toList := by
  intro h
  have hi : 'i' ∈ n.display.toList := h.subset List.mem_cons_self
  rcases Ipv4Net.display_chars hi with h | h | h
  all_goals exact absurd h (by decide)

/-- **The word of a line** is its prefix, or nothing under a name that ends in `inet`. -/
theorem inetToken_line :
    inetToken e.line = if e.name.EndsInet then none else some e.net.display.toList := by
  rw [inetToken, secondPart_line, Option.bind_some]
  by_cases hend : e.name.EndsInet
  · rw [if_pos hend, if_pos hend]
    decide
  · rw [if_neg hend, if_neg hend]
    have hspace : ' ' ∉ e.net.display.toList := fun h =>
      (Ipv4Net.display_chars h).elim (by decide) fun h => h.elim (by decide) (by decide)
    have hword : ∀ t, firstWord (e.net.display.toList ++ ' ' :: t) = some e.net.display.toList := by
      intro t
      refine firstWord_append (by simp [Ipv4Net.toList_display]) (fun c hc => ?_) (by decide)
      rcases Ipv4Net.display_chars hc with hdigit | rfl | rfl
      · exact isWhitespace_of_isDigit hdigit
      all_goals decide
    rw [splitOnce_mark_word hspace (display_not_suffix e.net)]
    cases splitOnce inetMark e.tail with
    | none => exact hword e.tail
    | some p => exact hword p.1

theorem newline_not_mem_line (e : Entry) : '\n' ∉ e.line := by
  have hdigit : ∀ i, '\n' ∉ Nat.toDigits 10 i := fun i h =>
    absurd ((toDigits_isNumeral i).digits '\n' h) (by decide)
  have hname : '\n' ∉ e.name.chars := e.name.not_space '\n' (by decide)
  have hnet : '\n' ∉ e.net.display.toList := fun h =>
    (Ipv4Net.display_chars h).elim (by decide) fun h => h.elim (by decide) (by decide)
  simp [Entry.line, Entry.tail, hdigit, hname, hnet, e.one_line]

/-- The name ends the line. -/
theorem getLast?_line (e : Entry) : e.line.getLast? ≠ some '\r' := by
  intro h
  have hline : e.line = Nat.toDigits 10 e.index ++ ": ".toList ++ e.name.chars ++
      "    inet ".toList ++ e.net.display.toList ++
      ' ' :: (e.extra ++ "scope ".toList ++ e.scope) ++ e.name.chars := by
    simp [Entry.line, Entry.tail]
  rw [hline, List.getLast?_append_of_ne_nil _ e.name.ne_nil] at h
  exact e.name.not_space '\r' (by decide) (List.mem_of_mem_getLast? h)

theorem lines_listing (es : List Entry) : lines (listing es) = es.map Entry.line := by
  have hmap : listing es = (es.map Entry.line).flatMap fun l => l ++ ['\n'] := by
    rw [listing, List.flatMap_map]
  rw [hmap]
  refine lines_flatMap fun l hl => ?_
  obtain ⟨e, -, rfl⟩ := List.mem_map.mp hl
  exact ⟨newline_not_mem_line e, getLast?_line e⟩

end Line

/-! ## The whole listing -/

/-- The addresses on the lines that are read. -/
def visible (es : List Entry) : List Ipv4Net :=
  (es.filter fun e => ¬ e.name.EndsInet).map Entry.net

section Listing
variable {isNet : List Char → Bool} {es : List Entry} {ip : Ipv4Addr} {n : Ipv4Net}

/-- The address with its `/` begins the text of a prefix when it is the prefix's address. -/
theorem prefix_display : (ip.display.toList ++ ['/']).isPrefixOf n.display.toList = true ↔
    n.addr = ip := by
  have hslash : ∀ a : Ipv4Addr, '/' ∉ a.display.toList := fun a h =>
    (Ipv4Addr.display_chars h).elim (by decide) (by decide)
  rw [Ipv4Net.toList_display, isPrefixOf_word (hslash ip) (hslash n.addr), String.toList_inj,
    Ipv4Addr.display_inj]
  exact eq_comm

/-- The text begins with `169.254.` when the address does. -/
theorem prefix_linkLocal :
    "169.254.".toList.isPrefixOf n.display.toList = n.addr.isLinkLocal := by
  have hdot : ∀ i, '.' ∉ Nat.toDigits 10 i := fun i h =>
    absurd ((toDigits_isNumeral i).digits '.' h) (by decide)
  have hdigits : ∀ o : UInt8, ∀ k : UInt8, Nat.toDigits 10 k.toNat = Nat.toDigits 10 o.toNat ↔
      o = k := by
    intro o k
    rw [← UInt8.toNat_inj]
    constructor
    · intro h
      rw [← value_toDigits o.toNat, ← h, value_toDigits]
    · intro h
      rw [h]
  have htext : n.display.toList = Nat.toDigits 10 n.addr.o0.toNat ++ '.' ::
      (Nat.toDigits 10 n.addr.o1.toNat ++ '.' :: (Nat.toDigits 10 n.addr.o2.toNat ++ '.' ::
        (Nat.toDigits 10 n.addr.o3.toNat ++ '/' :: Nat.toDigits 10 n.prefixLen))) := by
    simp [Ipv4Net.toList_display, Ipv4Addr.toList_display, Ipv4Addr.octets]
  have hprefix : "169.254.".toList = Nat.toDigits 10 (169 : UInt8).toNat ++ '.' ::
      (Nat.toDigits 10 (254 : UInt8).toNat ++ '.' :: []) := by decide
  rw [Bool.eq_iff_iff, List.isPrefixOf_iff_prefix, htext, hprefix,
    prefix_word (hdot _) (hdot _), prefix_word (hdot _) (hdot _), hdigits, hdigits]
  simp [Ipv4Addr.isLinkLocal]

theorem filterMap_inetToken (es : List Entry) :
    (es.map Entry.line).filterMap inetToken = (visible es).map fun n => n.display.toList := by
  rw [visible, List.filterMap_map, List.map_map, ← List.filterMap_eq_map, List.filterMap_filter]
  refine List.filterMap_congr fun e _ => ?_
  rw [Function.comp_apply, inetToken_line]
  by_cases hend : e.name.EndsInet <;> simp [hend]

theorem stdoutHasIpv4_listing : stdoutHasIpv4 (listing es) ip = true ↔
    ∃ n ∈ visible es, n.addr = ip := by
  have htokens : stdoutHasIpv4 (listing es) ip =
      ((es.map Entry.line).filterMap inetToken).any fun token =>
        (ip.display.toList ++ ['/']).isPrefixOf token := by
    rw [stdoutHasIpv4, lines_listing, List.any_filterMap]
    refine congrArg _ (funext fun line => ?_)
    cases inetToken line with
    | none => rfl
    | some t => rw [Option.any_some]
  rw [htokens, filterMap_inetToken, List.any_map, List.any_eq_true]
  simp only [Function.comp_apply, prefix_display]

theorem parseFirstInetCidr_listing (hnet : ∀ n : Ipv4Net, isNet n.display.toList = true) :
    parseFirstInetCidr isNet (listing es) =
      (firstInetCidr (visible es)).map fun n => n.display.toList := by
  have hfound : (lines (listing es)).filterMap (fun line => (inetToken line).filter isNet) =
      (visible es).map fun n => n.display.toList := by
    rw [lines_listing, ← filterMap_inetToken]
    refine List.filterMap_congr fun line hline => ?_
    obtain ⟨e, -, rfl⟩ := List.mem_map.mp hline
    rw [inetToken_line]
    by_cases hend : e.name.EndsInet <;> simp [hend, hnet]
  rw [parseFirstInetCidr, hfound, firstInetCidr, List.find?_map, List.head?_map]
  have hlocal : ((fun s => !"169.254.".toList.isPrefixOf s) ∘ fun n : Ipv4Net => n.display.toList) =
      fun n => !n.addr.isLinkLocal := funext fun n => by rw [Function.comp_apply, prefix_linkLocal]
  rw [hlocal, Option.map_or]

end Listing

/-! ## What the listing has -/

/-- The first entry outside `169.254.0.0/16`, else the first. -/
def preferred (es : List Entry) : Option Entry :=
  (es.find? fun e => !e.net.addr.isLinkLocal).or es.head?

/-- Both readers tell what the entries are. -/
def ListingRead (isNet : List Char → Bool) (es : List Entry) : Prop :=
  (∀ ip, stdoutHasIpv4 (listing es) ip = true ↔ ∃ e ∈ es, e.net.addr = ip) ∧
  parseFirstInetCidr isNet (listing es) = (preferred es).map fun e => e.net.display.toList

/-- Without the entries whose name ends in `inet`, no address is missing and the preferred
prefix is the same. -/
def InetNamesSpared (es : List Entry) : Prop :=
  (∀ e ∈ es, e.name.EndsInet →
    ∃ e' ∈ es, ¬ e'.name.EndsInet ∧ e'.net.addr = e.net.addr) ∧
  (preferred (es.filter fun e => ¬ e.name.EndsInet)).map Entry.net = (preferred es).map Entry.net

section Whole
variable {isNet : List Char → Bool} {es : List Entry}

theorem map_preferred (es : List Entry) :
    (preferred es).map Entry.net = firstInetCidr (es.map Entry.net) := by
  rw [preferred, firstInetCidr, List.find?_map, List.head?_map, Option.map_or]
  rfl

theorem mem_visible {n : Ipv4Net} :
    n ∈ visible es ↔ ∃ e ∈ es, ¬ e.name.EndsInet ∧ e.net = n := by
  simp [visible, and_assoc]

/-- Every address is found when those under a name that ends in `inet` are found elsewhere. -/
theorem stdoutHasIpv4_iff :
    (∀ ip, stdoutHasIpv4 (listing es) ip = true ↔ ∃ e ∈ es, e.net.addr = ip) ↔
      ∀ e ∈ es, e.name.EndsInet → ∃ e' ∈ es, ¬ e'.name.EndsInet ∧ e'.net.addr = e.net.addr := by
  simp only [stdoutHasIpv4_listing]
  constructor
  · intro h e he _
    obtain ⟨n, hn, hip⟩ := (h e.net.addr).mpr ⟨e, he, rfl⟩
    obtain ⟨e', he', hvisible, rfl⟩ := mem_visible.mp hn
    exact ⟨e', he', hvisible, hip⟩
  · intro h ip
    constructor
    · rintro ⟨n, hn, hip⟩
      obtain ⟨e, he, -, rfl⟩ := mem_visible.mp hn
      exact ⟨e, he, hip⟩
    · rintro ⟨e, he, rfl⟩
      by_cases hend : e.name.EndsInet
      · obtain ⟨e', he', hvisible, hip⟩ := h e he hend
        exact ⟨e'.net, mem_visible.mpr ⟨e', he', hvisible, rfl⟩, hip⟩
      · exact ⟨e.net, mem_visible.mpr ⟨e, he, hend, rfl⟩, rfl⟩

theorem parseFirstInetCidr_iff (hnet : ∀ n : Ipv4Net, isNet n.display.toList = true) :
    parseFirstInetCidr isNet (listing es) = (preferred es).map (fun e => e.net.display.toList) ↔
      (preferred (es.filter fun e => ¬ e.name.EndsInet)).map Entry.net =
        (preferred es).map Entry.net := by
  have hinj : Function.Injective fun n : Ipv4Net => n.display.toList := fun _ _ =>
    Ipv4Net.display_toList_inj.mp
  have hshown : (preferred es).map (fun e => e.net.display.toList) =
      ((preferred es).map Entry.net).map fun n => n.display.toList := by
    rw [Option.map_map]
    rfl
  rw [parseFirstInetCidr_listing hnet, visible, ← map_preferred, hshown]
  exact (Option.map_injective hinj).eq_iff

/-- **The listing is read** exactly when the names that end in `inet` are spared: no interface
that has an address is named so.  That a prefix as it is printed parses (`hnet`) is the one thing
asked of the parser. -/
theorem listingRead_iff (isNet : List Char → Bool)
    (hnet : ∀ n : Ipv4Net, isNet n.display.toList = true) (es : List Entry) :
    ListingRead isNet es ↔ InetNamesSpared es :=
  and_congr stdoutHasIpv4_iff (parseFirstInetCidr_iff hnet)

/-- A link-local address, an address under a name that ends in `inet`, and the same address
under another name. -/
theorem spared_listingRead :
    ∃ eth0 usbinet : IfName, usbinet.EndsInet ∧
      ListingRead Ipv4Net.isDisplay
        [⟨2, eth0, .slash24 ⟨169, 254, 1, 1⟩, [], "link ".toList, by decide⟩,
          ⟨3, usbinet, .slash24 ⟨10, 0, 0, 1⟩, [], "global ".toList, by decide⟩,
          ⟨2, eth0, .slash24 ⟨10, 0, 0, 1⟩, [], "global ".toList, by decide⟩] := by
  refine ⟨⟨"eth0".toList, by decide, by decide, by simp, by decide⟩,
    ⟨"usbinet".toList, by decide, by decide, by simp, by decide⟩, by decide, ?_⟩
  refine (listingRead_iff _ Ipv4Net.isDisplay_display _).mpr ⟨?_, ?_⟩
  · decide
  · decide

/-- The only address of an interface `usbinet` is not found. -/
theorem usbinet_not_read :
    ∃ e : Entry, e.name.chars = "usbinet".toList ∧ e.net = .slash24 ⟨10, 0, 0, 1⟩ ∧
      stdoutHasIpv4 (listing [e]) ⟨10, 0, 0, 1⟩ = false ∧
      parseFirstInetCidr Ipv4Net.isDisplay (listing [e]) = none ∧
      ¬ ListingRead Ipv4Net.isDisplay [e] := by
  refine ⟨⟨2, ⟨"usbinet".toList, by decide, by decide, by simp, by decide⟩,
    .slash24 ⟨10, 0, 0, 1⟩, [], "global ".toList, by decide⟩, rfl, rfl, ?_, ?_, fun h => ?_⟩
  · decide +kernel
  · decide +kernel
  · exact absurd (stdoutHasIpv4_iff.mp h.1 _ List.mem_cons_self (by decide)) (by decide)

end Whole
end Micronet
