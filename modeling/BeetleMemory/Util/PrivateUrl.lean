import BeetleMemory.LongTerm.Texts
import BeetleMemory.Lib.Decimal

/-! Which URLs count as private. The host is taken to be what stands before the first slash and the
first colon, so user information hides the host, the colons of an IPv6 address cut it off, and a query
without a path is part of it.
-/

namespace BeetleMemory.Util

open Decimal
open LongTerm (trim trim_eq_self prefix_before_mark dropStart_append)
open Store (isWhitespace dropStart startsWith)

/-! ## The check -/

/-- The text begins with the given one. -/
def begins (host : List Char) (start : String) : Bool :=
  start.toList.isPrefixOf host

/-- The second part between dots is a number from 16 to 31. -/
def secondInRange (host : List Char) : Bool :=
  match (host.splitOn '.')[1]?.bind (unsigned (2 ^ 8)) with
  | some second => 16 ≤ second && second ≤ 31
  | none => false

/-- The check of a host without the white space around it. -/
def isPrivateHost (host : List Char) : Bool :=
  if host.isEmpty then true
  else if host == "localhost".toList || host == "0.0.0.0".toList || begins host "127."
      || host == "[::1]".toList || begins host "[::ffff:127." then true
  else if begins host "10." || begins host "192.168." then true
  else if begins host "172." && secondInRange host then true
  else if begins host "169.254." || begins host "[fe80:" then true
  else false

def isPrivateUrl (url : String) : Bool :=
  let afterScheme := ((dropStart url "https://").or (dropStart url "http://")).getD url
  let host := (afterScheme.toList.takeWhile (· ≠ '/')).takeWhile (· ≠ ':')
  isPrivateHost (trim (String.ofList host)).toList

/-! ## Addresses -/

structure Ipv4 where
  a : UInt8
  b : UInt8
  c : UInt8
  d : UInt8
deriving DecidableEq, Repr

def Ipv4.text (address : Ipv4) : List Char :=
  ['.'].intercalate ([address.a, address.b, address.c, address.d].map fun octet =>
    Nat.toDigits 10 octet.toNat)

def Ipv4.unspecified : Ipv4 := ⟨0, 0, 0, 0⟩

def Ipv4.isLoopback (address : Ipv4) : Bool :=
  address.a == 127

def Ipv4.isPrivate (address : Ipv4) : Bool :=
  address.a == 10 || (address.a == 172 && 16 ≤ address.b && address.b ≤ 31)
    || (address.a == 192 && address.b == 168)

def Ipv4.isLinkLocal (address : Ipv4) : Bool :=
  address.a == 169 && address.b == 254

/-- One to four hexadecimal digits in any case. -/
structure Group where
  digits : List Char
  nonempty : digits ≠ []
  short : digits.length ≤ 4
  hex : ∀ c ∈ digits, c.isDigit = true ∨ c ∈ "abcdefABCDEF".toList

def hexDigitValue (c : Char) : Nat :=
  if c.isDigit then c.toNat - '0'.toNat else c.toLower.toNat - 'a'.toNat + 10

def Group.value (group : Group) : Nat :=
  group.digits.foldl (fun value c => 16 * value + hexDigitValue c) 0

/-- The last groups of an address, or their dotted form. -/
structure Tail where
  groups : List Group
  dotted : Option Ipv4

def Tail.size (tail : Tail) : Nat :=
  tail.groups.length + 2 * tail.dotted.toList.length

def Tail.values (tail : Tail) : List Nat :=
  tail.groups.map Group.value ++ tail.dotted.toList.flatMap fun address =>
    [256 * address.a.toNat + address.b.toNat, 256 * address.c.toNat + address.d.toNat]

def Tail.text (tail : Tail) : List Char :=
  [':'].intercalate (tail.groups.map Group.digits ++ tail.dotted.toList.map Ipv4.text)

/-- A textual form of an address: all groups, or groups with the zeros between them left out. -/
inductive Ipv6Text where
  | full (tail : Tail) (whole : tail.size = 8)
  | compressed (front : List Group) (tail : Tail) (short : front.length + tail.size ≤ 7)

def Ipv6Text.values : Ipv6Text → List Nat
  | .full tail _ => tail.values
  | .compressed front tail _ =>
      front.map Group.value ++ List.replicate (8 - front.length - tail.size) 0 ++ tail.values

def Ipv6Text.text : Ipv6Text → List Char
  | .full tail _ => tail.text
  | .compressed front tail _ =>
      [':'].intercalate (front.map Group.digits) ++ ':' :: ':' :: tail.text

def mappedIpv4 : List Nat → Option Ipv4
  | [0, 0, 0, 0, 0, 0xffff, high, low] =>
      some ⟨.ofNat (high / 256), .ofNat (high % 256), .ofNat (low / 256), .ofNat (low % 256)⟩
  | _ => none

/-- The loopback address, a link-local one, or a mapped loopback or private one. -/
def isLocalIpv6 (values : List Nat) : Bool :=
  values == [0, 0, 0, 0, 0, 0, 0, 1]
    || values.head?.any (fun first => 0xfe80 ≤ first && first ≤ 0xfebf)
    || (mappedIpv4 values).any fun address => address.isLoopback || address.isPrivate

/-- A host that is not to be reached. -/
inductive LocalHost where
  | localhost (text : List Char) (named : text.map Char.toLower = "localhost".toList)
  | ipv4 (address : Ipv4)
      (local_ : address = .unspecified ∨ address.isLoopback = true ∨ address.isPrivate = true
        ∨ address.isLinkLocal = true)
  | ipv6 (form : Ipv6Text) (local_ : isLocalIpv6 form.values = true)

def LocalHost.text : LocalHost → List Char
  | .localhost text _ => text
  | .ipv4 address _ => address.text
  | .ipv6 form _ => '[' :: (form.text ++ [']'])

/-! ## URLs -/

structure Url where
  secure : Bool
  user : Option (List Char)
  host : LocalHost
  port : Option (List Char)
  path : List Char
  query : Option (List Char)
  user_plain : ∀ user_ ∈ user, ∀ c ∈ user_, c ∉ ['/', '?', '#', '@']
  port_digits : ∀ port_ ∈ port, ∀ c ∈ port_, c.isDigit = true
  path_absolute : path = [] ∨ path.head? = some '/'

namespace Url

variable (url : Url)

/-- What follows the host. -/
def rest : List Char :=
  (url.port.toList.flatMap fun port => ':' :: port) ++ url.path
    ++ url.query.toList.flatMap fun query => '?' :: query

def afterScheme : List Char :=
  (url.user.toList.flatMap fun user => user ++ ['@']) ++ url.host.text ++ url.rest

def text : String :=
  (if url.secure then "https://" else "http://") ++ String.ofList url.afterScheme

/-- There is no white space in a URL. -/
def Visible : Prop :=
  ∀ c ∈ url.afterScheme, isWhitespace c = false

/-- A query right behind the host. -/
def BareQuery : Prop :=
  url.port = none ∧ url.path = [] ∧ url.query ≠ none

end Url

/-! ## What the check takes for the host -/

/-- What stands before the first slash or colon. -/
def lead (text : List Char) : List Char :=
  (text.takeWhile (· ≠ '/')).takeWhile (· ≠ ':')

theorem lead_eq (text : List Char) : lead text = text.takeWhile (fun c => c ≠ '/' ∧ c ≠ ':') := by
  rw [lead, List.takeWhile_takeWhile]
  congr 1
  funext c
  by_cases slash : c = '/' <;> by_cases colon : c = ':' <;> simp [slash, colon]

theorem lead_append {front : List Char} (plain : ∀ c ∈ front, c ≠ '/' ∧ c ≠ ':') (back : List Char)
    : lead (front ++ back) = front ++ lead back := by
  rw [lead_eq, lead_eq, List.takeWhile_append_of_pos]
  intro c member
  simpa using plain c member

theorem lead_append_colon {front : List Char} (plain : ∀ c ∈ front, c ≠ '/' ∧ c ≠ ':')
    (back : List Char)
    : lead (front ++ ':' :: back) = front := by
  rw [lead_append plain, lead_eq, List.takeWhile_cons_of_neg (by simp), List.append_nil]

theorem isPrivateUrl_text {url : Url} (visible : url.Visible)
    : isPrivateUrl url.text = isPrivateHost (lead url.afterScheme) := by
  have stripped : ((dropStart url.text "https://").or (dropStart url.text "http://")).getD url.text
      = String.ofList url.afterScheme := by
    rw [Url.text]
    cases url.secure with
    | true => simp [dropStart_append]
    | false =>
        have other : dropStart ("http://" ++ String.ofList url.afterScheme) "https://" = none := by
          simp [dropStart, startsWith, List.isPrefixOf]
        simp [dropStart_append, other]
  have inside : ∀ c ∈ lead url.afterScheme, isWhitespace c = false := by
    intro c member
    rw [lead_eq] at member
    exact visible c ((List.takeWhile_prefix _).subset member)
  have trimmed : trim (String.ofList (lead url.afterScheme))
      = String.ofList (lead url.afterScheme) := by
    refine trim_eq_self (fun c head => inside c ?_) fun c last => inside c ?_
    · exact List.mem_of_mem_head? (by simpa using head)
    · exact List.mem_of_mem_getLast? (by simpa using last)
  rw [isPrivateUrl, stripped]
  simp only [String.toList_ofList]
  rw [← lead, trimmed, String.toList_ofList]

/-- Behind the host nothing is taken for a part of it, but for a query without a path. -/
theorem lead_rest (url : Url)
    : (¬ url.BareQuery ∧ lead url.rest = [])
      ∨ url.BareQuery ∧ ∃ more, lead url.rest = '?' :: more := by
  have stop : ∀ c rest, c = '/' ∨ c = ':' → lead (c :: rest) = [] := by
    rintro c rest (rfl | rfl) <;> rw [lead_eq, List.takeWhile_cons_of_neg (by simp)]
  cases port : url.port with
  | some digits =>
      left
      simp only [Url.BareQuery, Url.rest, port, Option.toList_some, List.flatMap_cons,
        List.flatMap_nil, List.cons_append]
      exact ⟨by simp, stop _ _ (.inr rfl)⟩
  | none =>
      rcases url.path_absolute with empty | slash
      · cases query : url.query with
        | none =>
            left
            simp [Url.BareQuery, Url.rest, port, empty, query, lead]
        | some text =>
            right
            refine ⟨⟨port, empty, by simp [query]⟩, lead text, ?_⟩
            simp [Url.rest, port, empty, query, lead]
      · obtain ⟨more, shape⟩ := List.head?_eq_some_iff.mp slash
        left
        simp only [Url.BareQuery, Url.rest, port, shape, Option.toList_none, List.flatMap_nil,
          List.nil_append, List.cons_append]
        exact ⟨by simp, stop _ _ (.inl rfl)⟩

/-! ## Hosts without user information -/

theorem isPrivateHost_eq (host : List Char)
    : isPrivateHost host
      = (host.isEmpty || host == "localhost".toList || host == "0.0.0.0".toList
        || begins host "127." || host == "[::1]".toList || begins host "[::ffff:127."
        || begins host "10." || begins host "192.168."
        || (begins host "172." && secondInRange host) || begins host "169.254."
        || begins host "[fe80:") := by
  simp only [isPrivateHost, Bool.if_true_left, Bool.if_false_right, Bool.and_true, Bool.or_assoc,
    Bool.decide_eq_true]

theorem begins_iff {host : List Char} {start : String}
    : begins host start = true ↔ start.toList <+: host :=
  List.isPrefixOf_iff_prefix

/-- A text that begins with another character begins otherwise. -/
theorem begins_cons {c d : Char} {rest more : List Char} (start : String)
    (shape : start.toList = d :: more) (other : c ≠ d)
    : begins (c :: rest) start = false := by
  rw [begins, shape, List.isPrefixOf_cons_cons]
  simp [Ne.symm other]

/-- The first character says which texts a host is compared with. -/
theorem isPrivateHost_cons {c : Char} {rest : List Char} (noOne : c ≠ '1') (noBracket : c ≠ '[')
    : isPrivateHost (c :: rest) = true
      ↔ c :: rest = "localhost".toList ∨ c :: rest = "0.0.0.0".toList := by
  have bracketed : (c :: rest == "[::1]".toList) = false := by
    rw [beq_eq_false_iff_ne]
    exact fun same => noBracket (List.cons.inj same).1
  simp only [isPrivateHost_eq, List.isEmpty_cons, Bool.false_or, bracketed, Bool.or_false,
    begins_cons "127." rfl noOne, begins_cons "[::ffff:127." rfl noBracket,
    begins_cons "10." rfl noOne, begins_cons "192.168." rfl noOne,
    begins_cons "172." rfl noOne, begins_cons "169.254." rfl noOne,
    begins_cons "[fe80:" rfl noBracket, Bool.false_and, Bool.or_eq_true, beq_iff_eq]

/-- Without a colon, no bracketed host is known. -/
theorem isPrivateHost_bracket {rest : List Char} (plain : ':' ∉ rest)
    : isPrivateHost ('[' :: rest) = false := by
  have unknown : ∀ start : String, ':' ∈ start.toList → begins ('[' :: rest) start = false := by
    intro start colon
    rw [← Bool.not_eq_true, begins_iff]
    intro found
    rcases List.mem_cons.mp (found.subset colon) with bracket | inside
    · exact absurd bracket (by decide)
    · exact plain inside
  have loopback : ('[' :: rest == "[::1]".toList) = false := by
    rw [beq_eq_false_iff_ne]
    intro same
    have text : "[::1]".toList = '[' :: [':', ':', '1', ']'] := rfl
    rw [text] at same
    exact plain ((List.cons.inj same).2 ▸ List.mem_cons_self)
  have named : ('[' :: rest == "localhost".toList) = false := by
    rw [beq_eq_false_iff_ne]
    exact fun same => absurd (List.cons.inj same).1 (by decide)
  have zero : ('[' :: rest == "0.0.0.0".toList) = false := by
    rw [beq_eq_false_iff_ne]
    exact fun same => absurd (List.cons.inj same).1 (by decide)
  simp only [isPrivateHost_eq, List.isEmpty_cons, Bool.false_or, named, zero, loopback,
    begins_cons "127." rfl (show '[' ≠ '1' by decide),
    begins_cons "10." rfl (show '[' ≠ '1' by decide),
    begins_cons "192.168." rfl (show '[' ≠ '1' by decide),
    begins_cons "172." rfl (show '[' ≠ '1' by decide),
    begins_cons "169.254." rfl (show '[' ≠ '1' by decide),
    unknown "[::ffff:127." (by decide), unknown "[fe80:" (by decide), Bool.false_and]

/-- The part behind the first dot. -/
theorem secondInRange_append {front : List Char} (plain : '.' ∉ front) (rest : List Char)
    : secondInRange (front ++ '.' :: rest) = true
      ↔ ∃ second, unsigned (2 ^ 8) (rest.takeWhile (· ≠ '.')) = some second
        ∧ 16 ≤ second ∧ second ≤ 31 := by
  have head : ∀ text : List Char, (text.splitOn '.')[0]? = some (text.takeWhile (· ≠ '.')) := by
    intro text
    induction text with
    | nil => rfl
    | cons c text ih =>
        rw [List.splitOn, List.splitOnP_cons_eq_if_modifyHead]
        rw [List.splitOn] at ih
        by_cases dot : c = '.'
        · simp [dot]
        · rw [if_neg (by simpa using dot), List.takeWhile_cons_of_pos (by simpa using dot)]
          cases parts : text.splitOnP (· == '.') with
          | nil => exact absurd parts (List.splitOnP_ne_nil _ _)
          | cons first more =>
              rw [parts] at ih
              simp only [List.getElem?_cons_zero, Option.some.injEq] at ih
              simp [List.modifyHead, ih]
  have second : ((front ++ '.' :: rest).splitOn '.')[1]? = some (rest.takeWhile (· ≠ '.')) := by
    rw [List.splitOn, List.splitOnP_append_cons _ _ (by simp)]
    have alone : front.splitOnP (· == '.') = [front] := by
      rw [List.splitOnP_eq_singleton]
      intro c member
      simpa using fun same : c = '.' => plain (same ▸ member)
    rw [alone]
    exact head rest
  rw [secondInRange, second, Option.bind_some]
  cases unsigned (2 ^ 8) (rest.takeWhile (· ≠ '.')) with
  | none => simp
  | some value => simp

theorem ipv4_text (address : Ipv4)
    : address.text = Nat.toDigits 10 address.a.toNat ++ '.' :: (Nat.toDigits 10 address.b.toNat
      ++ '.' :: (Nat.toDigits 10 address.c.toNat ++ '.' :: Nat.toDigits 10 address.d.toNat)) := by
  simp [Ipv4.text, List.intercalate]

theorem ipv4_plain (address : Ipv4) {c : Char} (member : c ∈ address.text)
    : c.isDigit = true ∨ c = '.' := by
  have digits : ∀ n, c ∈ Nat.toDigits 10 n → c.isDigit = true :=
    fun n => Nat.isDigit_of_mem_toDigits (by omega) (by omega)
  simp only [ipv4_text, List.mem_append, List.mem_cons] at member
  rcases member with first | rfl | second | rfl | third | rfl | fourth
  · exact .inl (digits _ first)
  · exact .inr rfl
  · exact .inl (digits _ second)
  · exact .inr rfl
  · exact .inl (digits _ third)
  · exact .inr rfl
  · exact .inl (digits _ fourth)

theorem begins_octet {address : Ipv4} {start : String} (tail : List Char)
    (first : start.toList = Nat.toDigits 10 address.a.toNat ++ ['.'])
    : begins (address.text ++ tail) start = true := by
  rw [begins_iff, first, ipv4_text]
  exact ⟨_, by simp only [List.append_assoc, List.cons_append, List.nil_append]; rfl⟩

theorem begins_octets {address : Ipv4} {start : String} (tail : List Char)
    (first : start.toList
      = Nat.toDigits 10 address.a.toNat ++ '.' :: (Nat.toDigits 10 address.b.toNat ++ ['.']))
    : begins (address.text ++ tail) start = true := by
  rw [begins_iff, first, ipv4_text]
  exact ⟨_, by simp only [List.append_assoc, List.cons_append, List.nil_append]; rfl⟩

theorem secondInRange_ipv4 {address : Ipv4} (tail : List Char) (low : 16 ≤ address.b)
    (high : address.b ≤ 31)
    : secondInRange (address.text ++ tail) = true := by
  have plain : ∀ n, ∀ x ∈ Nat.toDigits 10 n, x ≠ '.' := by
    rintro n x member rfl
    exact absurd (Nat.isDigit_of_mem_toDigits (by omega) (by omega) member) (by decide)
  rw [ipv4_text, List.append_assoc, List.cons_append, List.append_assoc, List.cons_append,
    secondInRange_append fun dot => plain _ '.' dot rfl]
  refine ⟨address.b.toNat, ?_, UInt8.le_iff_toNat_le.mp low, UInt8.le_iff_toNat_le.mp high⟩
  rw [List.takeWhile_append_of_pos fun x member => decide_eq_true (plain _ x member),
    List.takeWhile_cons_of_neg (by simp), List.append_nil]
  have read := unsigned_padded (2 ^ 8) 0 address.b.toNat
  rw [if_pos address.b.toNat_lt] at read
  simpa [padded] using read

/-- Addresses are known by their first octets, but for the unspecified one. -/
theorem isPrivateHost_ipv4 {address : Ipv4}
    (local_ : address = .unspecified ∨ address.isLoopback = true ∨ address.isPrivate = true
      ∨ address.isLinkLocal = true) (tail : List Char)
    : isPrivateHost (address.text ++ tail) = true
      ↔ (address = .unspecified → tail = []) := by
  by_cases zero : address = .unspecified
  · subst zero
    have text : Ipv4.unspecified.text = ['0', '.', '0', '.', '0', '.', '0'] := by decide
    have known : "0.0.0.0".toList = ['0', '.', '0', '.', '0', '.', '0'] := rfl
    have other : "localhost".toList = 'l' :: ['o', 'c', 'a', 'l', 'h', 'o', 's', 't'] := rfl
    rw [text, List.cons_append, isPrivateHost_cons (by decide) (by decide), known, other]
    simp
  · obtain ⟨a, b, c, d⟩ := address
    simp only [zero, false_or, false_imp_iff, iff_true, Ipv4.isLoopback, Ipv4.isPrivate,
      Ipv4.isLinkLocal, Bool.or_eq_true, Bool.and_eq_true, beq_iff_eq, decide_eq_true_eq]
      at local_ ⊢
    rw [isPrivateHost_eq]
    rcases local_ with rfl | ((rfl | ⟨⟨rfl, low⟩, high⟩) | ⟨rfl, rfl⟩) | ⟨rfl, rfl⟩
    · have found : begins ((Ipv4.mk 127 b c d).text ++ tail) "127." = true :=
        begins_octet tail (by dsimp only; decide)
      simp [found]
    · have found : begins ((Ipv4.mk 10 b c d).text ++ tail) "10." = true :=
        begins_octet tail (by dsimp only; decide)
      simp [found]
    · have found : begins ((Ipv4.mk 172 b c d).text ++ tail) "172." = true :=
        begins_octet tail (by dsimp only; decide)
      have second : secondInRange ((Ipv4.mk 172 b c d).text ++ tail) = true :=
        secondInRange_ipv4 tail low high
      simp [found, second]
    · have found : begins ((Ipv4.mk 192 168 c d).text ++ tail) "192.168." = true :=
        begins_octets tail (by dsimp only; decide)
      simp [found]
    · have found : begins ((Ipv4.mk 169 254 c d).text ++ tail) "169.254." = true :=
        begins_octets tail (by dsimp only; decide)
      simp [found]

/-- The name is known in small letters only. -/
theorem isPrivateHost_localhost {text : List Char}
    (named : text.map Char.toLower = "localhost".toList) (tail : List Char)
    : isPrivateHost (text ++ tail) = true ↔ text = "localhost".toList ∧ tail = [] := by
  have length : text.length = 9 := by
    have := congrArg List.length named
    simpa using this
  cases text with
  | nil => simp at length
  | cons c text =>
      have first : c.toLower = 'l' := (List.cons.inj named).1
      have noOne : c ≠ '1' := by
        rintro rfl
        exact absurd first (by decide)
      have noBracket : c ≠ '[' := by
        rintro rfl
        exact absurd first (by decide)
      have noZero : c ≠ '0' := by
        rintro rfl
        exact absurd first (by decide)
      have zero : ¬ c :: (text ++ tail) = "0.0.0.0".toList := fun same =>
        noZero (List.cons.inj same).1
      rw [List.cons_append, isPrivateHost_cons noOne noBracket]
      simp only [zero, or_false]
      constructor
      · intro same
        rw [← List.cons_append] at same
        have none : tail = [] := by
          have sizes := congrArg List.length same
          rw [List.length_append, length] at sizes
          have nine : "localhost".toList.length = 9 := rfl
          exact List.length_eq_zero_iff.mp (by omega)
        rw [none, List.append_nil] at same
        exact ⟨same, none⟩
      · rintro ⟨same, rfl⟩
        rw [List.append_nil]
        exact same

/-- An address in brackets is cut off at its first colon. -/
theorem lead_ipv6 (form : Ipv6Text) (rest : List Char)
    : ∃ front, ':' ∉ front ∧ lead ('[' :: (form.text ++ [']']) ++ rest) = '[' :: front := by
  have hexPlain : ∀ group : Group, ∀ c ∈ group.digits, c ≠ '/' ∧ c ≠ ':' := by
    intro group c member
    rcases group.hex c member with digit | letter
    · constructor <;> rintro rfl <;> exact absurd digit (by decide)
    · constructor <;> rintro rfl <;> exact absurd letter (by decide)
  -- some group, or nothing, and then a colon
  obtain ⟨front, back, shape, plain⟩ : ∃ front back, form.text = front ++ ':' :: back
      ∧ ∀ c ∈ front, c ≠ '/' ∧ c ≠ ':' := by
    cases form with
    | full tail whole =>
        obtain ⟨groups, dotted⟩ := tail
        rw [Tail.size] at whole
        have few : dotted.toList.length ≤ 1 := by cases dotted <;> simp
        obtain ⟨first, second, more, rfl⟩ : ∃ first second more, groups = first :: second :: more := by
          rcases groups with _ | ⟨first, _ | ⟨second, more⟩⟩
          · simp at whole
            omega
          · simp at whole
            omega
          · exact ⟨first, second, more, rfl⟩
        refine ⟨first.digits, [':'].intercalate (second.digits :: (more.map Group.digits
          ++ dotted.toList.map Ipv4.text)), ?_, hexPlain first⟩
        simp [Ipv6Text.text, Tail.text, List.intercalate]
    | compressed front tail short =>
        cases front with
        | nil => exact ⟨[], ':' :: tail.text, by simp [Ipv6Text.text, List.intercalate], by simp⟩
        | cons first more =>
            cases more with
            | nil =>
                refine ⟨first.digits, ':' :: tail.text, ?_, hexPlain first⟩
                simp [Ipv6Text.text, List.intercalate]
            | cons second more =>
                refine ⟨first.digits, [':'].intercalate (second.digits :: more.map Group.digits)
                  ++ ':' :: ':' :: tail.text, ?_, hexPlain first⟩
                simp [Ipv6Text.text, List.intercalate]
  refine ⟨front, fun colon => (plain ':' colon).2 rfl, ?_⟩
  have whole : '[' :: (form.text ++ [']']) ++ rest = ('[' :: front) ++ ':' :: (back ++ [']'] ++ rest) := by
    rw [shape]
    simp
  rw [whole, lead_append_colon]
  intro c member
  rcases List.mem_cons.mp member with rfl | inside
  · exact ⟨by decide, by decide⟩
  · exact plain c inside

/-! ## Hosts behind user information -/

/-- The user information begins like a private address. -/
def UserBegins (user : List Char) : Prop :=
  begins user "127." = true ∨ begins user "10." = true ∨ begins user "192.168." = true
    ∨ (begins user "172." = true ∧ '.' ∈ user.drop 4 ∧ secondInRange user = true)
    ∨ begins user "169.254." = true

theorem begins_user {user : List Char} (more : List Char) {start : String} (plain : '@' ∉ start.toList)
    : begins (user ++ '@' :: more) start = begins user start := by
  rw [Bool.eq_iff_iff, begins_iff, begins_iff]
  exact ⟨prefix_before_mark plain, fun found => found.trans (List.prefix_append _ _)⟩

theorem unsigned_eq_none {limit : Nat} {text : List Char} {c : Char} (member : c ∈ text)
    (other : c.isDigit = false) (noSign : c ≠ '+')
    : unsigned limit text = none := by
  unfold unsigned
  split
  next rest =>
    have inside : c ∈ rest := (List.mem_cons.mp member).resolve_left noSign
    simp [number_eq_none inside other]
  next => simp [number_eq_none member other]

/-- The second part has to end before the user information does. -/
theorem secondInRange_user {user : List Char} (more : List Char)
    (found : begins user "172." = true)
    : secondInRange (user ++ '@' :: more) = true
      ↔ '.' ∈ user.drop 4 ∧ secondInRange user = true := by
  obtain ⟨rest, rfl⟩ := begins_iff.mp found
  have text : "172.".toList = ['1', '7', '2'] ++ ['.'] := rfl
  have behind : ("172.".toList ++ rest).drop 4 = rest := rfl
  have plain : '.' ∉ ['1', '7', '2'] := by decide
  have shape : ∀ more, "172.".toList ++ more = ['1', '7', '2'] ++ '.' :: more := by
    intro more
    rw [text, List.append_assoc, List.singleton_append]
  rw [behind, List.append_assoc, shape, shape, secondInRange_append plain,
    secondInRange_append plain]
  by_cases dot : '.' ∈ rest
  · have cut : (rest ++ '@' :: more).takeWhile (· ≠ '.') = rest.takeWhile (· ≠ '.') := by
      rw [List.takeWhile_append, if_neg]
      intro whole
      have stops := List.takeWhile_eq_self_iff.mp
        ((List.takeWhile_prefix _).eq_of_length whole) '.' dot
      simp at stops
    rw [cut]
    simp [dot]
  · have whole : ∀ x ∈ rest, decide (x ≠ '.') = true := fun x member =>
      decide_eq_true fun same => dot (same ▸ member)
    have marked : '@' ∈ (rest ++ '@' :: more).takeWhile (· ≠ '.') := by
      rw [List.takeWhile_append_of_pos whole, List.takeWhile_cons_of_pos (by decide)]
      simp
    rw [unsigned_eq_none marked (by decide) (by decide)]
    simp [dot]

theorem isPrivateHost_user {user : List Char} (plain : ':' ∉ user) (more : List Char)
    : isPrivateHost (user ++ '@' :: more) = true ↔ UserBegins user := by
  have different : ∀ word : String, '@' ∉ word.toList
      → (user ++ '@' :: more == word.toList) = false := by
    intro word absent
    rw [beq_eq_false_iff_ne]
    intro same
    exact absent (same ▸ by simp)
  have unknown : ∀ start : String, ':' ∈ start.toList → begins user start = false := by
    intro start colon
    rw [← Bool.not_eq_true, begins_iff]
    exact fun found => plain (found.subset colon)
  have some : (user ++ '@' :: more).isEmpty = false := by simp
  have bracket : "[::1]".toList = ['[', ':', ':', '1', ']'] := rfl
  rw [isPrivateHost_eq, some, different "localhost" (by decide), different "0.0.0.0" (by decide),
    different "[::1]" (by rw [bracket]; decide), begins_user more (by decide),
    begins_user more (by decide), begins_user more (by decide), begins_user more (by decide),
    begins_user more (by decide), begins_user more (by decide), begins_user more (by decide),
    unknown "[::ffff:127." (by decide), unknown "[fe80:" (by decide)]
  by_cases found : begins user "172." = true
  · have second := secondInRange_user more found
    simp only [UserBegins, found, Bool.false_or, Bool.or_false, Bool.true_and, Bool.or_eq_true,
      second, true_and, or_assoc]
  · rw [Bool.not_eq_true] at found
    simp only [UserBegins, found, Bool.false_or, Bool.or_false, Bool.false_and, Bool.or_eq_true,
      Bool.false_eq_true, false_and, false_or, or_assoc]

/-! ## Which local hosts are reported -/

/-- Without user information: the name in small letters or an IPv4 address, without a query right
behind the name or behind the unspecified address. With user information: its own beginning looks like
a private host.
-/
def Url.Reported (url : Url) : Prop :=
  match url.user with
  | none =>
      match url.host with
      | .localhost text _ => text = "localhost".toList ∧ ¬ url.BareQuery
      | .ipv4 address _ => address = .unspecified → ¬ url.BareQuery
      | .ipv6 _ _ => False
  | some user =>
      if ':' ∈ user then isPrivateHost (user.takeWhile (· ≠ ':')) = true else UserBegins user

theorem lead_rest_eq_nil (url : Url) : lead url.rest = [] ↔ ¬ url.BareQuery := by
  rcases lead_rest url with ⟨bare, none⟩ | ⟨bare, more, some⟩
  · simp [bare, none]
  · simp [bare, some]

theorem plain_of_isDigit {c : Char} (digit : c.isDigit = true) : c ≠ '/' ∧ c ≠ ':' := by
  constructor <;> rintro rfl <;> exact absurd digit (by decide)

/-- A URL with a local host is reported exactly under that condition. -/
theorem isPrivateUrl_iff (url : Url) (visible : url.Visible)
    : isPrivateUrl url.text = true ↔ url.Reported := by
  rw [isPrivateUrl_text visible, Url.Reported]
  cases user : url.user with
  | none =>
      have text : url.afterScheme = url.host.text ++ url.rest := by
        simp [Url.afterScheme, user]
      rw [text]
      cases host : url.host with
      | localhost name named =>
          have plain : ∀ c ∈ name, c ≠ '/' ∧ c ≠ ':' := by
            intro c member
            have small : c.toLower ∈ "localhost".toList := named ▸ List.mem_map_of_mem member
            constructor <;> rintro rfl <;> exact absurd small (by decide)
          rw [LocalHost.text, lead_append plain, isPrivateHost_localhost named, lead_rest_eq_nil]
      | ipv4 address local_ =>
          have plain : ∀ c ∈ address.text, c ≠ '/' ∧ c ≠ ':' := by
            intro c member
            rcases ipv4_plain address member with digit | rfl
            · exact plain_of_isDigit digit
            · exact ⟨by decide, by decide⟩
          rw [LocalHost.text, lead_append plain, isPrivateHost_ipv4 local_, lead_rest_eq_nil]
      | ipv6 form local_ =>
          obtain ⟨front, plain, cut⟩ := lead_ipv6 form url.rest
          rw [LocalHost.text, cut, isPrivateHost_bracket plain]
          simp
  | some info =>
      have plain := url.user_plain info user
      have text : url.afterScheme = info ++ '@' :: (url.host.text ++ url.rest) := by
        simp [Url.afterScheme, user]
      have noSlash : ∀ c ∈ info, c ≠ '/' := fun c member same =>
        plain c member (same ▸ by simp)
      rw [text]
      by_cases colon : ':' ∈ info
      · have cut : lead (info ++ '@' :: (url.host.text ++ url.rest))
            = info.takeWhile (· ≠ ':') := by
          have front : ∀ c ∈ info.takeWhile (· ≠ ':'), c ≠ '/' ∧ c ≠ ':' := fun c member =>
            ⟨noSlash c ((List.takeWhile_prefix _).subset member),
              by simpa using List.mem_takeWhile_imp member⟩
          cases rest : info.dropWhile (· ≠ ':') with
          | nil =>
              have all := List.dropWhile_eq_nil_iff.mp rest ':' colon
              simp at all
          | cons c more =>
              have stop := List.head?_dropWhile_not (· ≠ ':') info
              rw [rest] at stop
              obtain rfl : c = ':' := by simpa using stop
              have parts := List.takeWhile_append_dropWhile (p := (· ≠ ':')) (l := info)
              rw [rest] at parts
              conv_lhs => rw [← parts]
              rw [List.append_assoc, List.cons_append, lead_append_colon front]
        rw [cut]
        simp only [if_pos colon]
      · have front : ∀ c ∈ info, c ≠ '/' ∧ c ≠ ':' := fun c member =>
          ⟨noSlash c member, fun same => colon (same ▸ member)⟩
        have marked : lead ('@' :: (url.host.text ++ url.rest))
            = '@' :: lead (url.host.text ++ url.rest) := by
          rw [lead_eq, lead_eq, List.takeWhile_cons_of_pos (by decide)]
        rw [lead_append front, marked, isPrivateHost_user colon]
        simp only [if_neg colon]

def groupOf (text : String)
    (proper : text.toList ≠ [] ∧ text.toList.length ≤ 4
      ∧ text.toList.all (fun c => c.isDigit || "abcdefABCDEF".toList.contains c) = true)
    : Group where
  digits := text.toList
  nonempty := proper.1
  short := proper.2.1
  hex c member := by simpa using List.all_eq_true.mp proper.2.2 c member

/-- The loopback address in brackets, a name in capital letters, and a user in front of an address. -/
theorem local_hosts_missed
    : isPrivateUrl "http://[::1]/" = false
      ∧ isLocalIpv6 (Ipv6Text.compressed [] ⟨[groupOf "1" (by decide)], none⟩ (by decide)).values = true
      ∧ (Ipv6Text.compressed [] ⟨[groupOf "1" (by decide)], none⟩ (by decide)).text = "::1".toList
      ∧ isPrivateUrl "http://LOCALHOST/" = false
      ∧ isPrivateUrl "https://user@127.0.0.1/" = false
      ∧ isPrivateUrl "http://localhost?q" = false := by
  decide +kernel

/-- The address of a private range, with a port, a path and a query. -/
def sampleUrl : Url where
  secure := true
  user := none
  host := .ipv4 ⟨172, 31, 0, 9⟩ (by decide)
  port := some "8080".toList
  path := "/a".toList
  query := some "b".toList
  user_plain := by simp
  port_digits := by
    rintro _ ⟨⟩
    exact List.all_eq_true.mp (by decide : "8080".toList.all Char.isDigit = true)
  path_absolute := .inr rfl

/-- Witness: this one is reported. -/
theorem private_address_reported
    : sampleUrl.text = "https://172.31.0.9:8080/a?b" ∧ isPrivateUrl sampleUrl.text = true := by
  refine ⟨by decide +kernel, (isPrivateUrl_iff sampleUrl ?_).mpr ?_⟩
  · have clear : sampleUrl.afterScheme.all (fun c => !isWhitespace c) = true := by decide +kernel
    intro c member
    simpa using List.all_eq_true.mp clear c member
  · change (Ipv4.mk 172 31 0 9) = .unspecified → ¬ sampleUrl.BareQuery
    exact fun zero => absurd zero (by decide)

end BeetleMemory.Util
