import Planten.Library.Splitting
import Planten.Runtime

/-
  The addresses of 9P servers.

  `10_ns` reads an address as a dial string, a bracketed
  address, a host with a port, or a bare host.  It reads
  every address of these forms as it should, and some texts
  of none of them as well: it skips empty pieces of a dial
  string and all but the last two, what follows a bracket if
  it is no port, a missing host, and a plus sign; and it
  takes any text in brackets, and any with several colons,
  for an IPv6 address.

  Key definitions include:
    * `parse9pAddr`
    * `DialsTo`
    * `Overlooked`

  Key theorems include:
    * `parseU16_eq_some_iff_digits`
    * `readAs_of_dialsTo`
    * `dialsTo_of_parse9pAddr`
    * `parse9pAddr_iff_dialsTo`
-/

------------------------------------------------------------
-- The Parser
------------------------------------------------------------

namespace Planten

open Splitting

def DEFAULT_9P_PORT : UInt16 :=
  564

/- `str::parse::<u16>`. -/
def parseU16 (s : String) : Option UInt16 :=
  let digits := unsignedDigits s
  if digits ≠ [] ∧ digits.all Char.isDigit ∧
      Nat.ofDigitChars 10 digits 0 < 2 ^ 16 then
    some (UInt16.ofNat (Nat.ofDigitChars 10 digits 0))
  else
    none

def parsePort
    (addr portPart : String) : Except String UInt16 :=
  match parseU16 portPart with
  | some port => .ok port
  | none =>
      .error ("invalid port '" ++ portPart ++
        "' in addr '" ++ addr ++ "'")

/- `addr.split('!')`. -/
def dialPieces (addr : String) : List String :=
  (addr.toList.splitOn '!').map String.ofList

/- Empty pieces are dropped, and the last two are read. -/
def parseDial
    (addr : String) : Except String (String × UInt16) :=
  let parts := (dialPieces addr).filter (fun s => s ≠ "")
  match parts.reverse with
  | portPart :: hostPart :: _ => do
      let port ← parsePort addr portPart
      pure (hostPart, port)
  | _ => .error ("invalid 9P addr '" ++ addr ++ "'")

/- What follows the bracket is a port, or is not read. -/
def parseBracketed
    (addr : String) : Except String (String × UInt16) :=
  match splitOnce ']' addr.toList with
  | none => .error ("invalid IPv6 addr '" ++ addr ++ "'")
  | some (opened, remainder) =>
      let host := String.ofList (opened.drop 1)
      match remainder with
      | ':' :: c :: rest => do
          let port ←
            parsePort addr (String.ofList (c :: rest))
          pure (host, port)
      | _ => .ok (host, DEFAULT_9P_PORT)

def parseHostPort
    (addr : String) : Except String (String × UInt16) :=
  match rsplitOnce ':' addr.toList with
  | some (host, portStr) => do
      let port ← parsePort addr (String.ofList portStr)
      pure (String.ofList host, port)
  | none => .ok (addr, DEFAULT_9P_PORT)

def parse9pAddr
    (addr : String) : Except String (String × UInt16) :=
  if trim addr = "" then
    .error "address is empty"
  else if '!' ∈ addr.toList then
    parseDial addr
  else if addr.toList.head? = some '[' then
    parseBracketed addr
  else if addr.toList.count ':' = 1 then
    parseHostPort addr
  else
    .ok (addr, DEFAULT_9P_PORT)

end Planten

------------------------------------------------------------
-- The Grammar
------------------------------------------------------------

namespace Planten

/- Decimal digits and nothing else. -/
structure IsPort (text : String) (port : UInt16) : Prop where
  nonempty : text.toList ≠ []
  digits : ∀ c ∈ text.toList, c.isDigit = true
  value : Nat.ofDigitChars 10 text.toList 0 = port.toNat

/-
  `[net!]host!port`, `[v6]`, `[v6]:port`, `host:port`, and by
  itself a host without colons, which is a text that is not
  blank, or an IPv6 address.  Which texts are IPv6 addresses
  is a matter of the library.
-/
inductive DialsTo
    (isIpv6 : String → Bool) :
    String → String → UInt16 → Prop where
| dial
    {host text : String}
    {port : UInt16}
    (hHost : host ≠ "")
    (hPlain : '!' ∉ host.toList)
    (hPort : IsPort text port) :
    DialsTo isIpv6 (host ++ "!" ++ text) host port
| netDial
    {net host text : String}
    {port : UInt16}
    (hNet : net ≠ "")
    (hNetPlain : '!' ∉ net.toList)
    (hHost : host ≠ "")
    (hPlain : '!' ∉ host.toList)
    (hPort : IsPort text port) :
    DialsTo isIpv6 (net ++ "!" ++ host ++ "!" ++ text) host
      port
| bracketed
    {host : String}
    (hHost : host ≠ "")
    (hIpv6 : isIpv6 host = true)
    (hPlain : ∀ c ∈ ['!', ']'], c ∉ host.toList) :
    DialsTo isIpv6 ("[" ++ host ++ "]") host DEFAULT_9P_PORT
| bracketedPort
    {host text : String}
    {port : UInt16}
    (hHost : host ≠ "")
    (hIpv6 : isIpv6 host = true)
    (hPlain : ∀ c ∈ ['!', ']'], c ∉ host.toList)
    (hPort : IsPort text port) :
    DialsTo isIpv6 ("[" ++ host ++ "]:" ++ text) host port
| hostPort
    {host text : String}
    {port : UInt16}
    (hHost : host ≠ "")
    (hPlain : ∀ c ∈ ['!', ':'], c ∉ host.toList)
    (hOpen : host.toList.head? ≠ some '[')
    (hPort : IsPort text port) :
    DialsTo isIpv6 (host ++ ":" ++ text) host port
| bare
    {host : String}
    (hHost : trim host ≠ "")
    (hPlain : ∀ c ∈ ['!', ':'], c ∉ host.toList)
    (hOpen : host.toList.head? ≠ some '[') :
    DialsTo isIpv6 host host DEFAULT_9P_PORT
| bareIpv6
    {host : String}
    (hIpv6 : isIpv6 host = true)
    (hPlain : '!' ∉ host.toList)
    (hOpen : host.toList.head? ≠ some '[')
    (hColons : 2 ≤ host.toList.count ':') :
    DialsTo isIpv6 host host DEFAULT_9P_PORT

/- The text of a port with a plus sign in front. -/
def Signed (text : List Char) : Prop :=
  text.head? = some '+'

/-
  Two pieces are left and the last is a port, but there are
  empty pieces, or too many, or a sign.
-/
def OverlookedDial (addr : String) : Prop :=
  ∃ front host text,
    (dialPieces addr).filter (fun s => s ≠ "") =
        front ++ [host, text] ∧
      (parseU16 text).isSome ∧
      ("" ∈ dialPieces addr ∨
        3 < (dialPieces addr).length ∨ Signed text.toList)

/-
  There is no IPv6 address in the brackets, or what follows
  them is neither nothing nor a port without a sign.
-/
def OverlookedBracket
    (isIpv6 : String → Bool)
    (addr : String) : Prop :=
  ∃ host rest,
    addr.toList = '[' :: host ++ ']' :: rest ∧
      ']' ∉ host ∧
      ((∃ text,
          text ≠ [] ∧ rest = ':' :: text ∧
            (parseU16 (String.ofList text)).isSome ∧
            (host = [] ∨
              isIpv6 (String.ofList host) = false ∨
              Signed text)) ∨
        ((∀ text, text ≠ [] → rest ≠ ':' :: text) ∧
          (host = [] ∨
            isIpv6 (String.ofList host) = false ∨
            rest ≠ [])))

/- The host is missing, or the port has a sign. -/
def OverlookedColon (addr : String) : Prop :=
  ∃ host text,
    addr.toList = host ++ ':' :: text ∧
      ':' ∉ host ∧ ':' ∉ text ∧
      (parseU16 (String.ofList text)).isSome ∧
      (host = [] ∨ Signed text)

/- There are several colons, and no IPv6 address. -/
def OverlookedBare
    (isIpv6 : String → Bool)
    (addr : String) : Prop :=
  2 ≤ addr.toList.count ':' ∧ isIpv6 addr = false

/- A text of another form that is read as an address. -/
def Overlooked
    (isIpv6 : String → Bool)
    (addr : String) : Prop :=
  if '!' ∈ addr.toList then
    OverlookedDial addr
  else if addr.toList.head? = some '[' then
    OverlookedBracket isIpv6 addr
  else
    OverlookedColon addr ∨ OverlookedBare isIpv6 addr

end Planten

------------------------------------------------------------
-- Ports
------------------------------------------------------------

namespace Planten

theorem parseU16_eq_some_iff_digits
    {text : String}
    {port : UInt16} :
    parseU16 text = some port ↔
      IsPort (String.ofList (unsignedDigits text)) port := by
  unfold parseU16
  dsimp only
  constructor
  · intro hParse
    split at hParse
    · rename_i hDigits
      rcases hDigits with ⟨hNonempty, hAll, hFits⟩
      cases hParse
      constructor
      · rw [String.toList_ofList]
        exact hNonempty
      · rw [String.toList_ofList]
        exact List.all_eq_true.mp hAll
      · rw [String.toList_ofList,
          UInt16.toNat_ofNat_of_lt' hFits]
    · cases hParse
  · rintro ⟨hNonempty, hDigits, hValue⟩
    rw [String.toList_ofList] at hNonempty hDigits hValue
    have hFits := port.toNat_lt
    rw [if_pos ⟨hNonempty, List.all_eq_true.mpr hDigits,
      hValue ▸ hFits⟩, hValue, UInt16.ofNat_toNat]

/- No digit is any of the separators. -/
theorem IsPort.not_mem
    {text : String}
    {port : UInt16}
    {c : Char}
    (hPort : IsPort text port)
    (hc : c.isDigit = false) :
    c ∉ text.toList := by
  intro hMem
  rw [hPort.digits c hMem] at hc
  cases hc

theorem IsPort.not_signed
    {text : String}
    {port : UInt16}
    (hPort : IsPort text port) :
    ¬ Signed text.toList := by
  intro hSigned
  exact hPort.not_mem (by decide)
    (List.mem_of_mem_head? hSigned)

theorem IsPort.not_signed_ofList
    {text : List Char}
    {port : UInt16}
    (hPort : IsPort (String.ofList text) port) :
    ¬ Signed text := by
  have hUnsigned := hPort.not_signed
  rwa [String.toList_ofList] at hUnsigned

theorem unsignedDigits_of_not_signed
    {text : String}
    (hUnsigned : ¬ Signed text.toList) :
    unsignedDigits text = text.toList := by
  unfold unsignedDigits
  split
  · rename_i digits hDigits
    rw [hDigits] at hUnsigned
    exact absurd rfl hUnsigned
  · rfl

/- A sign aside, a port that is read is one. -/
theorem isPort_of_parseU16
    {text : String}
    {port : UInt16}
    (hParse : parseU16 text = some port)
    (hUnsigned : ¬ Signed text.toList) :
    IsPort text port := by
  have hPort := parseU16_eq_some_iff_digits.mp hParse
  rw [unsignedDigits_of_not_signed hUnsigned,
    String.ofList_toList] at hPort
  exact hPort

theorem isPort_of_parseU16_ofList
    {text : List Char}
    {port : UInt16}
    (hParse : parseU16 (String.ofList text) = some port)
    (hUnsigned : ¬ Signed text) :
    IsPort (String.ofList text) port := by
  apply isPort_of_parseU16 hParse
  rw [String.toList_ofList]
  exact hUnsigned

theorem IsPort.parseU16
    {text : String}
    {port : UInt16}
    (hPort : IsPort text port) :
    parseU16 text = some port := by
  rw [parseU16_eq_some_iff_digits,
    unsignedDigits_of_not_signed hPort.not_signed,
    String.ofList_toList]
  exact hPort

theorem IsPort.ne_empty
    {text : String}
    {port : UInt16}
    (hPort : IsPort text port) :
    text ≠ "" := by
  rintro rfl
  exact hPort.nonempty rfl

/- A port that is read holds digits and a sign at most. -/
theorem not_mem_of_parseU16
    {text : String}
    {port : UInt16}
    {c : Char}
    (hParse : parseU16 text = some port)
    (hc : c.isDigit = false)
    (hSign : c ≠ '+') :
    c ∉ text.toList := by
  have hPort := parseU16_eq_some_iff_digits.mp hParse
  have hNot := hPort.not_mem hc
  rw [String.toList_ofList] at hNot
  unfold unsignedDigits at hNot
  split at hNot
  · rename_i digits hDigits
    rw [hDigits, List.mem_cons, not_or]
    exact ⟨hSign, hNot⟩
  · exact hNot

theorem parsePort_eq_ok_iff
    {addr text : String}
    {port : UInt16} :
    parsePort addr text = .ok port ↔
      parseU16 text = some port := by
  unfold parsePort
  cases parseU16 text <;> simp

end Planten

------------------------------------------------------------
-- What is Read
------------------------------------------------------------

namespace Planten

open Splitting

variable {addr host : String} {port : UInt16}

theorem parseDial_eq_ok_iff :
    parseDial addr = .ok (host, port) ↔
      ∃ front text,
        (dialPieces addr).filter (fun s => s ≠ "") =
            front ++ [host, text] ∧
          parseU16 text = some port := by
  unfold parseDial
  generalize (dialPieces addr).filter
    (fun s => s ≠ "") = parts
  dsimp only
  constructor
  · intro hParse
    split at hParse
    · rename_i portPart hostPart rest hReverse
      rcases bind_eq_ok_iff.mp hParse with
        ⟨port', hPort, hPure⟩
      cases hPure
      refine ⟨rest.reverse, portPart, ?_,
        parsePort_eq_ok_iff.mp hPort⟩
      rw [← List.reverse_reverse parts, hReverse]
      simp
    · cases hParse
  · rintro ⟨front, text, rfl, hPort⟩
    simp only [List.reverse_append, List.reverse_cons,
      List.reverse_nil, List.nil_append, List.cons_append]
    rw [parsePort_eq_ok_iff.mpr hPort]
    rfl

/- A port stands behind the bracket, or none is read. -/
theorem parseBracketed_eq_ok_iff
    {v6 rest : List Char}
    (hAddr : addr.toList = '[' :: v6 ++ ']' :: rest)
    (hClosed : ']' ∉ v6) :
    parseBracketed addr = .ok (host, port) ↔
      host = String.ofList v6 ∧
        ((∃ text,
            text ≠ [] ∧ rest = ':' :: text ∧
              parseU16 (String.ofList text) = some port) ∨
          (∀ text, text ≠ [] → rest ≠ ':' :: text) ∧
            port = DEFAULT_9P_PORT) := by
  have hSplit :
      splitOnce ']' addr.toList =
        some ('[' :: v6, rest) := by
    apply splitOnce_eq_some_iff.mpr
    exact ⟨hAddr, by simpa using hClosed⟩
  rw [parseBracketed, hSplit]
  dsimp only [List.drop_succ_cons, List.drop_zero]
  split
  · rename_i c rest
    simp only [bind_eq_ok_iff, parsePort_eq_ok_iff]
    constructor
    · rintro ⟨port', hPort, hPure⟩
      cases hPure
      exact ⟨rfl, Or.inl ⟨c :: rest,
        List.cons_ne_nil _ _, rfl, hPort⟩⟩
    · rintro ⟨rfl, ⟨text, _, hText, hPort⟩ | ⟨hNone, _⟩⟩
      · cases hText
        exact ⟨port, hPort, rfl⟩
      · exact absurd rfl
          (hNone (c :: rest) (List.cons_ne_nil _ _))
  · rename_i hNone
    have hNoText :
        ∀ text, text ≠ [] → rest ≠ ':' :: text := by
      rintro (_ | ⟨c, text⟩) hText
      · exact absurd rfl hText
      · exact hNone c text
    constructor
    · intro hOk
      cases hOk
      exact ⟨rfl, Or.inr ⟨hNoText, rfl⟩⟩
    · rintro ⟨rfl, ⟨text, hText, hRest, _⟩ | ⟨_, rfl⟩⟩
      · exact absurd hRest (hNoText text hText)
      · rfl

/- Only a closed bracket is read. -/
theorem brackets_of_parseBracketed
    (hOpen : addr.toList.head? = some '[')
    (hParse : parseBracketed addr = .ok (host, port)) :
    ∃ v6 rest,
      addr.toList = '[' :: v6 ++ ']' :: rest ∧ ']' ∉ v6 := by
  cases hSplit : splitOnce ']' addr.toList with
  | none =>
      rw [parseBracketed, hSplit] at hParse
      cases hParse
  | some parts =>
      rcases parts with ⟨opened, rest⟩
      rcases splitOnce_eq_some_iff.mp hSplit with
        ⟨hAddr, hClosed⟩
      rw [hAddr] at hOpen
      cases opened with
      | nil =>
          cases hOpen
      | cons c v6 =>
          cases hOpen
          rw [List.mem_cons, not_or] at hClosed
          exact ⟨v6, rest, hAddr, hClosed.2⟩

theorem parseHostPort_eq_ok_iff
    {before text : List Char}
    (hAddr : addr.toList = before ++ ':' :: text)
    (hLast : ':' ∉ text) :
    parseHostPort addr = .ok (host, port) ↔
      host = String.ofList before ∧
        parseU16 (String.ofList text) = some port := by
  have hSplit :
      rsplitOnce ':' addr.toList = some (before, text) :=
    rsplitOnce_eq_some_iff.mpr ⟨hAddr, hLast⟩
  rw [parseHostPort, hSplit]
  simp only [bind_eq_ok_iff, parsePort_eq_ok_iff]
  constructor
  · rintro ⟨port', hPort, hPure⟩
    cases hPure
    exact ⟨rfl, hPort⟩
  · rintro ⟨rfl, hPort⟩
    exact ⟨port, hPort, rfl⟩

end Planten

------------------------------------------------------------
-- Forms of an Address
------------------------------------------------------------

namespace Planten

open Splitting

variable {addr host : String} {port : UInt16}

/- A text with more than white space is not blank. -/
theorem trim_ne_empty
    {c : Char}
    (hMem : c ∈ addr.toList)
    (hSolid : isWhitespace c = false) :
    trim addr ≠ "" := by
  intro hBlank
  have hNothing := congrArg String.toList hBlank
  rw [trim, String.toList_ofList] at hNothing
  have hDropped := List.rdropWhile_eq_nil_iff.mp hNothing
  rw [← List.takeWhile_append_dropWhile
    (p := isWhitespace) (l := addr.toList)] at hMem
  have hSpace : isWhitespace c = true := by
    rcases List.mem_append.mp hMem with hFront | hRest
    · exact List.mem_takeWhile_imp hFront
    · exact hDropped c hRest
  rw [hSolid] at hSpace
  cases hSpace

theorem parse9pAddr_of_bang
    (hBang : '!' ∈ addr.toList) :
    parse9pAddr addr = parseDial addr := by
  rw [parse9pAddr, if_neg (trim_ne_empty hBang (by decide)),
    if_pos hBang]

theorem parse9pAddr_of_open
    (hBang : '!' ∉ addr.toList)
    (hOpen : addr.toList.head? = some '[') :
    parse9pAddr addr = parseBracketed addr := by
  have hMem : '[' ∈ addr.toList := List.mem_of_head? hOpen
  rw [parse9pAddr, if_neg (trim_ne_empty hMem (by decide)),
    if_neg hBang, if_pos hOpen]

theorem count_of_colon
    {before text : List Char}
    (hAddr : addr.toList = before ++ ':' :: text)
    (hBefore : ':' ∉ before)
    (hText : ':' ∉ text) :
    addr.toList.count ':' = 1 := by
  rw [hAddr, List.count_append, List.count_cons_self,
    List.count_eq_zero.mpr hBefore,
    List.count_eq_zero.mpr hText]

theorem parse9pAddr_of_colon
    {before text : List Char}
    (hAddr : addr.toList = before ++ ':' :: text)
    (hBefore : ':' ∉ before)
    (hText : ':' ∉ text)
    (hBang : '!' ∉ addr.toList)
    (hOpen : addr.toList.head? ≠ some '[') :
    parse9pAddr addr = parseHostPort addr := by
  have hMem : ':' ∈ addr.toList := by
    rw [hAddr]
    exact List.mem_append_right _ List.mem_cons_self
  rw [parse9pAddr, if_neg (trim_ne_empty hMem (by decide)),
    if_neg hBang, if_neg hOpen,
    if_pos (count_of_colon hAddr hBefore hText)]

end Planten

------------------------------------------------------------
-- What the Grammar Reads
------------------------------------------------------------

namespace Planten

open Splitting

variable {isIpv6 : String → Bool}
variable {addr host : String} {port : UInt16}

theorem dialPieces_append
    {piece : String}
    (hPlain : '!' ∉ piece.toList)
    (rest : String) :
    dialPieces (piece ++ "!" ++ rest) =
      piece :: dialPieces rest := by
  have hList :
      (piece ++ "!" ++ rest).toList =
        piece.toList ++ '!' :: rest.toList := by
    simp [String.toList_append]
  rw [dialPieces, hList,
    List.splitOn_append_cons_self_of_not_mem hPlain,
    List.map_cons, String.ofList_toList]
  rfl

theorem dialPieces_of_plain
    {piece : String}
    (hPlain : '!' ∉ piece.toList) :
    dialPieces piece = [piece] := by
  rw [dialPieces, List.splitOn_eq_singleton hPlain,
    List.map_singleton, String.ofList_toList]

/- A text that is read as its form has it. -/
structure ReadAs
    (isIpv6 : String → Bool)
    (addr host : String)
    (port : UInt16) : Prop where
  parsed : parse9pAddr addr = .ok (host, port)
  wellFormed : ¬ Overlooked isIpv6 addr

/- A port behind the brackets, or none, is read. -/
theorem parse9pAddr_of_brackets
    {v6 rest : List Char}
    (hAddr : addr.toList = '[' :: v6 ++ ']' :: rest)
    (hBang : '!' ∉ addr.toList)
    (hClosed : ']' ∉ v6)
    (hRest :
      (rest = [] ∧ port = DEFAULT_9P_PORT) ∨
        ∃ text,
          rest = ':' :: text ∧
            IsPort (String.ofList text) port) :
    parse9pAddr addr = .ok (String.ofList v6, port) := by
  have hOpen : addr.toList.head? = some '[' := by
    rw [hAddr]
    rfl
  rw [parse9pAddr_of_open hBang hOpen,
    parseBracketed_eq_ok_iff hAddr hClosed]
  refine ⟨rfl, ?_⟩
  rcases hRest with ⟨rfl, hDefault⟩ | ⟨text, rfl, hPort⟩
  · refine Or.inr ⟨?_, hDefault⟩
    intro text _
    exact (List.cons_ne_nil _ _).symm
  · refine Or.inl ⟨text, ?_, rfl, hPort.parseU16⟩
    rintro rfl
    exact hPort.nonempty rfl

theorem readAs_of_pieces
    {front : List String}
    {text : String}
    (hBang : '!' ∈ addr.toList)
    (hPieces : dialPieces addr = front ++ [host, text])
    (hFront : front.length ≤ 1)
    (hFull : ∀ piece ∈ front ++ [host, text], piece ≠ "")
    (hPort : IsPort text port) :
    ReadAs isIpv6 addr host port := by
  have hKept :
      (dialPieces addr).filter (fun s => s ≠ "") =
        front ++ [host, text] := by
    rw [hPieces, List.filter_eq_self]
    intro piece hMem
    exact decide_eq_true (hFull piece hMem)
  constructor
  · rw [parse9pAddr_of_bang hBang, parseDial_eq_ok_iff]
    exact ⟨front, text, hKept, hPort.parseU16⟩
  · rw [Overlooked, if_pos hBang]
    rintro ⟨front', host', text', hParts, _, hSlack⟩
    have hLast :
        (front ++ [host, text]).getLast? =
          (front' ++ [host', text']).getLast? := by
      rw [← hKept, hParts]
    have hText : text = text' := by
      simpa using hLast
    subst hText
    rcases hSlack with hEmpty | hMany | hSigned
    · rw [hPieces] at hEmpty
      exact hFull "" hEmpty rfl
    · rw [hPieces, List.length_append] at hMany
      simp only [List.length_cons, List.length_nil] at hMany
      omega
    · exact hPort.not_signed hSigned

theorem readAs_of_brackets
    {rest : List Char}
    (hAddr :
      addr.toList = '[' :: host.toList ++ ']' :: rest)
    (hBang : '!' ∉ addr.toList)
    (hClosed : ']' ∉ host.toList)
    (hHost : host ≠ "")
    (hIpv6 : isIpv6 host = true)
    (hRest :
      (rest = [] ∧ port = DEFAULT_9P_PORT) ∨
        ∃ text,
          rest = ':' :: text ∧
            IsPort (String.ofList text) port) :
    ReadAs isIpv6 addr host port := by
  have hOpen : addr.toList.head? = some '[' := by
    rw [hAddr]
    rfl
  constructor
  · have hParsed :=
      parse9pAddr_of_brackets hAddr hBang hClosed hRest
    rwa [String.ofList_toList] at hParsed
  · rw [Overlooked, if_neg hBang, if_pos hOpen]
    rintro ⟨v6', rest', hAddr', hClosed', hSlack⟩
    rcases eq_of_splits hAddr hAddr'
        (by simpa using hClosed) (by simpa using hClosed')
      with ⟨hSame, rfl⟩
    cases hSame
    rw [String.ofList_toList] at hSlack
    rcases hSlack with
      ⟨text', _, hText', _, hEmpty | hOther | hSigned⟩ |
        ⟨hNone, hEmpty | hOther | hMore⟩
    · exact hHost (String.toList_eq_nil_iff.mp hEmpty)
    · cases hIpv6.symm.trans hOther
    · rcases hRest with ⟨rfl, _⟩ | ⟨text, rfl, hPort⟩
      · cases hText'
      · cases hText'
        exact hPort.not_signed_ofList hSigned
    · exact hHost (String.toList_eq_nil_iff.mp hEmpty)
    · cases hIpv6.symm.trans hOther
    · rcases hRest with ⟨rfl, _⟩ | ⟨text, rfl, hPort⟩
      · exact hMore rfl
      · refine hNone text ?_ rfl
        rintro rfl
        exact hPort.nonempty rfl

theorem readAs_of_colon
    {text : String}
    (hAddr :
      addr.toList = host.toList ++ ':' :: text.toList)
    (hBang : '!' ∉ addr.toList)
    (hOpen : addr.toList.head? ≠ some '[')
    (hBefore : ':' ∉ host.toList)
    (hHost : host ≠ "")
    (hPort : IsPort text port) :
    ReadAs isIpv6 addr host port := by
  have hText := hPort.not_mem (c := ':') (by decide)
  constructor
  · rw [parse9pAddr_of_colon hAddr hBefore hText hBang
      hOpen, parseHostPort_eq_ok_iff hAddr hText,
      String.ofList_toList, String.ofList_toList]
    exact ⟨rfl, hPort.parseU16⟩
  · rw [Overlooked, if_neg hBang, if_neg hOpen]
    rintro
      (⟨before', text', hAddr', hBefore', _, _, hSlack⟩ |
        ⟨hColons, _⟩)
    · rcases eq_of_splits hAddr hAddr' hBefore hBefore'
        with ⟨rfl, rfl⟩
      rcases hSlack with hEmpty | hSigned
      · exact hHost (String.toList_eq_nil_iff.mp hEmpty)
      · exact hPort.not_signed hSigned
    · rw [count_of_colon hAddr hBefore hText] at hColons
      omega

/- A bare host has no port, so none is read. -/
theorem readAs_of_bare
    (hBlank : trim addr ≠ "")
    (hBang : '!' ∉ addr.toList)
    (hOpen : addr.toList.head? ≠ some '[')
    (hColons :
      ':' ∉ addr.toList ∨
        2 ≤ addr.toList.count ':' ∧ isIpv6 addr = true) :
    ReadAs isIpv6 addr addr DEFAULT_9P_PORT := by
  have hNotOne : addr.toList.count ':' ≠ 1 := by
    rcases hColons with hNone | ⟨hMany, _⟩
    · rw [List.count_eq_zero.mpr hNone]
      exact Nat.zero_ne_one
    · omega
  constructor
  · rw [parse9pAddr, if_neg hBlank, if_neg hBang,
      if_neg hOpen, if_neg hNotOne]
  · rw [Overlooked, if_neg hBang, if_neg hOpen]
    rintro (⟨before, text, hAddr, hBefore, hText, _⟩ |
      ⟨hMany, hOther⟩)
    · exact hNotOne (count_of_colon hAddr hBefore hText)
    · rcases hColons with hNone | ⟨_, hIpv6⟩
      · rw [List.count_eq_zero.mpr hNone] at hMany
        exact absurd hMany (by decide)
      · cases hIpv6.symm.trans hOther

/- An address of the grammar is read as it should be. -/
theorem readAs_of_dialsTo
    (hDials : DialsTo isIpv6 addr host port) :
    ReadAs isIpv6 addr host port := by
  cases hDials with
  | @dial host text port hHost hPlain hPort =>
      have hText := hPort.not_mem (c := '!') (by decide)
      have hPieces :
          dialPieces (host ++ "!" ++ text) =
            [] ++ [host, text] := by
        rw [dialPieces_append hPlain,
          dialPieces_of_plain hText]
        rfl
      apply readAs_of_pieces _ hPieces (Nat.zero_le 1) _
        hPort
      · simp
      · simp [hHost, hPort.ne_empty]
  | @netDial net host text port hNet hNetPlain hHost hPlain
      hPort =>
      have hText := hPort.not_mem (c := '!') (by decide)
      have hAddr :
          net ++ "!" ++ host ++ "!" ++ text =
            net ++ "!" ++ (host ++ "!" ++ text) := by
        simp only [String.append_assoc]
      have hPieces :
          dialPieces (net ++ "!" ++ host ++ "!" ++ text) =
            [net] ++ [host, text] := by
        rw [hAddr, dialPieces_append hNetPlain,
          dialPieces_append hPlain,
          dialPieces_of_plain hText]
        rfl
      apply readAs_of_pieces _ hPieces (le_refl 1) _ hPort
      · simp
      · simp [hNet, hHost, hPort.ne_empty]
  | @bracketed host hHost hIpv6 hPlain =>
      have hAddr :
          ("[" ++ host ++ "]").toList =
            '[' :: host.toList ++ ']' :: [] := by
        simp
      have hBang : '!' ∉ ("[" ++ host ++ "]").toList := by
        simpa using hPlain '!' (by simp)
      exact readAs_of_brackets hAddr hBang
        (hPlain ']' (by simp)) hHost hIpv6
        (Or.inl ⟨rfl, rfl⟩)
  | @bracketedPort host text port hHost hIpv6 hPlain hPort =>
      have hText := hPort.not_mem (c := '!') (by decide)
      have hAddr :
          ("[" ++ host ++ "]:" ++ text).toList =
            '[' :: host.toList ++ ']' ::
              ':' :: text.toList := by
        simp
      have hBang :
          '!' ∉ ("[" ++ host ++ "]:" ++ text).toList := by
        simpa [hText] using hPlain '!' (by simp)
      have hPort' :
          IsPort (String.ofList text.toList) port := by
        rwa [String.ofList_toList]
      exact readAs_of_brackets hAddr hBang
        (hPlain ']' (by simp)) hHost hIpv6
        (Or.inr ⟨text.toList, rfl, hPort'⟩)
  | @hostPort host text port hHost hPlain hOpen hPort =>
      have hText := hPort.not_mem (c := '!') (by decide)
      have hSome : host.toList ≠ [] := by
        simpa using hHost
      have hAddr :
          (host ++ ":" ++ text).toList =
            host.toList ++ ':' :: text.toList := by
        simp
      have hBang : '!' ∉ (host ++ ":" ++ text).toList := by
        simpa [hText] using hPlain '!' (by simp)
      have hHead :
          (host ++ ":" ++ text).toList.head? ≠ some '[' := by
        rw [hAddr, List.head?_append_of_ne_nil _ hSome]
        exact hOpen
      exact readAs_of_colon hAddr hBang hHead
        (hPlain ':' (by simp)) hHost hPort
  | bare hHost hPlain hOpen =>
      exact readAs_of_bare hHost (hPlain '!' (by simp)) hOpen
        (Or.inl (hPlain ':' (by simp)))
  | bareIpv6 hIpv6 hPlain hOpen hColons =>
      have hMem : ':' ∈ addr.toList :=
        List.count_pos_iff.mp (Nat.lt_of_lt_of_le
          Nat.zero_lt_two hColons)
      exact readAs_of_bare (trim_ne_empty hMem (by decide))
        hPlain hOpen (Or.inr ⟨hColons, hIpv6⟩)

end Planten

------------------------------------------------------------
-- What is Overlooked
------------------------------------------------------------

namespace Planten

open Splitting

variable {isIpv6 : String → Bool}
variable {addr host : String} {port : UInt16}

/- The pieces of a dial string, put together again. -/
theorem intercalate_dialPieces (addr : String) :
    ['!'].intercalate
        ((dialPieces addr).map String.toList) =
      addr.toList := by
  rw [dialPieces, List.map_map]
  simp only [Function.comp_def, String.toList_ofList,
    List.map_id']
  exact List.intercalate_splitOn '!'

theorem not_bang_of_mem_dialPieces
    {piece : String}
    (hMem : piece ∈ dialPieces addr) :
    '!' ∉ piece.toList := by
  rcases List.mem_map.mp hMem with ⟨part, hPart, rfl⟩
  rw [String.toList_ofList]
  exact not_mem_of_mem_splitOn hPart

theorem dialsTo_of_parseDial
    (hBang : '!' ∈ addr.toList)
    (hParse : parseDial addr = .ok (host, port))
    (hForm : ¬ Overlooked isIpv6 addr) :
    DialsTo isIpv6 addr host port := by
  rw [Overlooked, if_pos hBang] at hForm
  rcases parseDial_eq_ok_iff.mp hParse with
    ⟨front, text, hParts, hPort⟩
  have hSome : (parseU16 text).isSome := by
    rw [hPort]
    rfl
  have hNoSlack :
      ¬ ("" ∈ dialPieces addr ∨
        3 < (dialPieces addr).length ∨
          Signed text.toList) :=
    fun hSlack =>
      hForm ⟨front, host, text, hParts, hSome, hSlack⟩
  simp only [not_or] at hNoSlack
  rcases hNoSlack with ⟨hFull, hFew, hUnsigned⟩
  have hPieces : dialPieces addr = front ++ [host, text] := by
    rw [← hParts, eq_comm, List.filter_eq_self]
    intro piece hMem
    apply decide_eq_true
    rintro rfl
    exact hFull hMem
  have hIsPort := isPort_of_parseU16 hPort hUnsigned
  have hPlain (piece : String)
      (hMem : piece ∈ front ++ [host, text]) :
      piece ≠ "" ∧ '!' ∉ piece.toList := by
    rw [← hPieces] at hMem
    refine ⟨?_, not_bang_of_mem_dialPieces hMem⟩
    rintro rfl
    exact hFull hMem
  have hAddr := intercalate_dialPieces addr
  rw [hPieces] at hAddr hFew
  rcases front with _ | ⟨net, _ | ⟨more, front⟩⟩
  · have hText : addr = host ++ "!" ++ text := by
      rw [← String.toList_inj, ← hAddr]
      simp [List.intercalate]
    rw [hText]
    exact .dial (hPlain host (by simp)).1
      (hPlain host (by simp)).2 hIsPort
  · have hText :
        addr = net ++ "!" ++ host ++ "!" ++ text := by
      rw [← String.toList_inj, ← hAddr]
      simp [List.intercalate]
    rw [hText]
    exact .netDial (hPlain net (by simp)).1
      (hPlain net (by simp)).2 (hPlain host (by simp)).1
      (hPlain host (by simp)).2 hIsPort
  · simp only [List.length_append,
      List.length_cons] at hFew
    omega

theorem ofList_ne_empty
    {l : List Char}
    (hNonempty : l ≠ []) :
    String.ofList l ≠ "" := by
  intro hEmpty
  apply hNonempty
  rw [← String.toList_ofList (l := l), hEmpty]
  rfl

theorem dialsTo_of_parseBracketed
    (hBang : '!' ∉ addr.toList)
    (hOpen : addr.toList.head? = some '[')
    (hParse : parseBracketed addr = .ok (host, port))
    (hForm : ¬ Overlooked isIpv6 addr) :
    DialsTo isIpv6 addr host port := by
  rw [Overlooked, if_neg hBang, if_pos hOpen] at hForm
  rcases brackets_of_parseBracketed hOpen hParse with
    ⟨v6, rest, hAddr, hClosed⟩
  rcases (parseBracketed_eq_ok_iff hAddr hClosed).mp hParse
    with ⟨rfl, hRest⟩
  have hNoBang : '!' ∉ v6 := by
    intro hMem
    rw [hAddr] at hBang
    exact hBang (by simp [hMem])
  have hPlain :
      ∀ c ∈ ['!', ']'], c ∉ (String.ofList v6).toList := by
    rw [String.toList_ofList]
    simp [hNoBang, hClosed]
  rcases hRest with
    ⟨text, hText, rfl, hPort⟩ | ⟨hNone, rfl⟩
  · have hSome :
        (parseU16 (String.ofList text)).isSome := by
      rw [hPort]
      rfl
    have hTight :
        ¬ (v6 = [] ∨ isIpv6 (String.ofList v6) = false ∨
          Signed text) :=
      fun hSlack =>
        hForm ⟨v6, ':' :: text, hAddr, hClosed,
          Or.inl ⟨text, hText, rfl, hSome, hSlack⟩⟩
    simp only [not_or, Bool.not_eq_false] at hTight
    have hIsPort :=
      isPort_of_parseU16_ofList hPort hTight.2.2
    have hAddr' :
        addr = "[" ++ String.ofList v6 ++ "]:" ++
          String.ofList text := by
      rw [← String.toList_inj, hAddr]
      simp
    rw [hAddr']
    exact .bracketedPort (ofList_ne_empty hTight.1)
      hTight.2.1 hPlain hIsPort
  · have hTight :
        ¬ (v6 = [] ∨ isIpv6 (String.ofList v6) = false ∨
          rest ≠ []) :=
      fun hSlack =>
        hForm ⟨v6, rest, hAddr, hClosed,
          Or.inr ⟨hNone, hSlack⟩⟩
    simp only [not_or, Bool.not_eq_false, not_not] at hTight
    rcases hTight with ⟨hSome, hIpv6, rfl⟩
    have hAddr' :
        addr = "[" ++ String.ofList v6 ++ "]" := by
      rw [← String.toList_inj, hAddr]
      simp
    rw [hAddr']
    exact .bracketed (ofList_ne_empty hSome) hIpv6 hPlain

theorem dialsTo_of_parseHostPort
    (hBang : '!' ∉ addr.toList)
    (hOpen : addr.toList.head? ≠ some '[')
    (hColons : addr.toList.count ':' = 1)
    (hParse : parseHostPort addr = .ok (host, port))
    (hForm : ¬ Overlooked isIpv6 addr) :
    DialsTo isIpv6 addr host port := by
  rw [Overlooked, if_neg hBang, if_neg hOpen] at hForm
  rcases exists_of_count_eq_one hColons with
    ⟨before, text, hAddr, hBefore, hText⟩
  have hRead :=
    (parseHostPort_eq_ok_iff hAddr hText).mp hParse
  rcases hRead with ⟨rfl, hPort⟩
  have hTight : ¬ (before = [] ∨ Signed text) :=
    fun hSlack =>
      hForm (Or.inl ⟨before, text, hAddr, hBefore, hText, by
        rw [hPort]
        rfl, hSlack⟩)
  rw [not_or] at hTight
  have hIsPort := isPort_of_parseU16_ofList hPort hTight.2
  have hText' :
      addr = String.ofList before ++ ":" ++
        String.ofList text := by
    rw [← String.toList_inj, hAddr]
    simp
  rw [hAddr] at hBang
  rw [hAddr, List.head?_append_of_ne_nil _ hTight.1]
    at hOpen
  rw [hText']
  apply DialsTo.hostPort (ofList_ne_empty hTight.1) _ _
    hIsPort
  · rw [String.toList_ofList]
    simp only [List.mem_append, not_or] at hBang
    simp [hBang.1, hBefore]
  · rw [String.toList_ofList]
    exact hOpen

theorem dialsTo_of_bare
    (hBlank : trim addr ≠ "")
    (hBang : '!' ∉ addr.toList)
    (hOpen : addr.toList.head? ≠ some '[')
    (hColons : addr.toList.count ':' ≠ 1)
    (hForm : ¬ Overlooked isIpv6 addr) :
    DialsTo isIpv6 addr addr DEFAULT_9P_PORT := by
  rw [Overlooked, if_neg hBang, if_neg hOpen, not_or] at hForm
  by_cases hMem : ':' ∈ addr.toList
  · have hMany : 2 ≤ addr.toList.count ':' := by
      have hSome := List.count_pos_iff.mpr hMem
      omega
    apply DialsTo.bareIpv6 _ hBang hOpen hMany
    exact Bool.of_not_eq_false
      (fun hOther => hForm.2 ⟨hMany, hOther⟩)
  · apply DialsTo.bare hBlank _ hOpen
    simp [hBang, hMem]

/- What is read and not overlooked is of the grammar. -/
theorem dialsTo_of_parse9pAddr
    (hParse : parse9pAddr addr = .ok (host, port))
    (hForm : ¬ Overlooked isIpv6 addr) :
    DialsTo isIpv6 addr host port := by
  unfold parse9pAddr at hParse
  split_ifs at hParse with hBlank hBang hOpen hColons
  · exact dialsTo_of_parseDial hBang hParse hForm
  · exact dialsTo_of_parseBracketed hBang hOpen hParse hForm
  · exact dialsTo_of_parseHostPort hBang hOpen hColons
      hParse hForm
  · cases hParse
    exact dialsTo_of_bare hBlank hBang hOpen hColons hForm

/- What is overlooked is read all the same. -/
theorem parse9pAddr_of_overlooked
    (hForm : Overlooked isIpv6 addr) :
    ∃ host port, parse9pAddr addr = .ok (host, port) := by
  unfold Overlooked at hForm
  split_ifs at hForm with hBang hOpen
  · rcases hForm with ⟨front, host, text, hParts, hPort, _⟩
    rcases Option.isSome_iff_exists.mp hPort with
      ⟨port, hPort⟩
    refine ⟨host, port, ?_⟩
    rw [parse9pAddr_of_bang hBang, parseDial_eq_ok_iff]
    exact ⟨front, text, hParts, hPort⟩
  · rcases hForm with ⟨v6, rest, hAddr, hClosed, hRest⟩
    rw [parse9pAddr_of_open hBang hOpen]
    rcases hRest with
      ⟨text, hText, rfl, hPort, _⟩ | ⟨hNone, _⟩
    · rcases Option.isSome_iff_exists.mp hPort with
        ⟨port, hPort⟩
      exact ⟨String.ofList v6, port,
        (parseBracketed_eq_ok_iff hAddr hClosed).mpr
          ⟨rfl, Or.inl ⟨text, hText, rfl, hPort⟩⟩⟩
    · exact ⟨String.ofList v6, DEFAULT_9P_PORT,
        (parseBracketed_eq_ok_iff hAddr hClosed).mpr
          ⟨rfl, Or.inr ⟨hNone, rfl⟩⟩⟩
  · rcases hForm with
      ⟨before, text, hAddr, hBefore, hText, hPort, _⟩ |
        ⟨hMany, _⟩
    · rcases Option.isSome_iff_exists.mp hPort with
        ⟨port, hPort⟩
      refine ⟨String.ofList before, port, ?_⟩
      rw [parse9pAddr_of_colon hAddr hBefore hText hBang
        hOpen]
      exact (parseHostPort_eq_ok_iff hAddr hText).mpr
        ⟨rfl, hPort⟩
    · have hMem : ':' ∈ addr.toList :=
        List.count_pos_iff.mp (Nat.lt_of_lt_of_le
          Nat.zero_lt_two hMany)
      refine ⟨addr, DEFAULT_9P_PORT, ?_⟩
      rw [parse9pAddr,
        if_neg (trim_ne_empty hMem (by decide)),
        if_neg hBang, if_neg hOpen, if_neg (by omega)]

end Planten

------------------------------------------------------------
-- The Parser and the Grammar
------------------------------------------------------------

namespace Planten

/- The three forms that carry a port, written out. -/
def dialText (host : String) (port : UInt16) : String :=
  host ++ "!" ++ port.toNat.repr

def bracketText (host : String) (port : UInt16) : String :=
  "[" ++ host ++ "]:" ++ port.toNat.repr

def colonText (host : String) (port : UInt16) : String :=
  host ++ ":" ++ port.toNat.repr

/- A host that fits a form is read back from it. -/
structure FormatsBack
    (host : String)
    (port : UInt16) : Prop where
  dial :
    '!' ∉ host.toList →
      parse9pAddr (dialText host port) = .ok (host, port)
  bracket :
    (∀ c ∈ ['!', ']'], c ∉ host.toList) →
      parse9pAddr (bracketText host port) = .ok (host, port)
  colon :
    (∀ c ∈ ['!', ':'], c ∉ host.toList) →
      host.toList.head? ≠ some '[' →
        parse9pAddr (colonText host port) = .ok (host, port)

theorem isPort_repr (port : UInt16) :
    IsPort port.toNat.repr port := by
  constructor
  · rw [Nat.toList_repr]
    exact Nat.toDigits_ne_nil
  · intro c hMem
    rw [Nat.toList_repr] at hMem
    exact Nat.isDigit_of_mem_toDigits (by decide)
      (by decide) hMem
  · rw [Nat.toList_repr, Nat.ofDigitChars_ten_toDigits]

theorem formatsBack
    {host : String}
    (hHost : host ≠ "")
    (port : UInt16) :
    FormatsBack host port := by
  have hPort := isPort_repr port
  constructor
  · intro hPlain
    have hDials :
        DialsTo (fun _ => false) (dialText host port) host
          port :=
      .dial hHost hPlain hPort
    exact (readAs_of_dialsTo hDials).parsed
  · intro hPlain
    have hDigits := hPort.not_mem (c := '!') (by decide)
    have hAddr :
        (bracketText host port).toList =
          '[' :: host.toList ++ ']' ::
            ':' :: port.toNat.repr.toList := by
      simp [bracketText]
    have hBang : '!' ∉ (bracketText host port).toList := by
      rw [hAddr]
      simp only [List.cons_append, List.mem_cons,
        List.mem_append, hDigits, hPlain '!' (by simp)]
      decide
    have hRead :=
      parse9pAddr_of_brackets hAddr hBang
        (hPlain ']' (by simp))
        (Or.inr ⟨_, rfl, by rwa [String.ofList_toList]⟩)
    rwa [String.ofList_toList] at hRead
  · intro hPlain hOpen
    have hDials :
        DialsTo (fun _ => false) (colonText host port) host
          port :=
      .hostPort hHost hPlain hOpen hPort
    exact (readAs_of_dialsTo hDials).parsed

/-
  The parser accepts just what the grammar has for the
  addresses that are not overlooked, and no others; and what
  is formatted is read back.
-/
theorem parse9pAddr_iff_dialsTo
    (isIpv6 : String → Bool)
    (addr : String) :
    ((∀ host port,
        parse9pAddr addr = .ok (host, port) ↔
          DialsTo isIpv6 addr host port) ↔
      ¬ Overlooked isIpv6 addr) ∧
    ∀ host port, host ≠ "" → FormatsBack host port := by
  refine ⟨?_, fun host port hHost => formatsBack hHost port⟩
  constructor
  · intro hExact hForm
    rcases parse9pAddr_of_overlooked hForm with
      ⟨host, port, hParse⟩
    have hDials := (hExact host port).mp hParse
    exact (readAs_of_dialsTo hDials).wellFormed hForm
  · intro hForm host port
    constructor
    · intro hParse
      exact dialsTo_of_parse9pAddr hParse hForm
    · intro hDials
      exact (readAs_of_dialsTo hDials).parsed

/-
  What follows the bracket here is no port, whatever IPv6
  addresses are.
-/
theorem overlooked_of_trailing_text :
    parse9pAddr "[::1]x" = .ok ("::1", 564) ∧
      ¬ ∃ isIpv6, ∀ addr host port,
          parse9pAddr addr = .ok (host, port) ↔
            DialsTo isIpv6 addr host port := by
  have hParse :
      parse9pAddr "[::1]x" = .ok ("::1", 564) := by
    decide +kernel
  refine ⟨hParse, ?_⟩
  rintro ⟨isIpv6, hExact⟩
  have hDials := (hExact "[::1]x" "::1" 564).mp hParse
  apply (readAs_of_dialsTo hDials).wellFormed
  rw [Overlooked, if_neg (by decide), if_pos (by decide)]
  refine ⟨[':', ':', '1'], ['x'], by decide, by decide,
    Or.inr ⟨?_, Or.inr (Or.inr (by decide))⟩⟩
  intro text _ hEq
  cases hEq

end Planten
