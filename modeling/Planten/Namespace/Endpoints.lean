import Planten.Namespace.Addresses

/-
  Where `10_ns` looks for a 9P server.

  A server is probed before it is mounted.  The probe hands
  the address to the standard library, which splits it at
  the last colon; the mount has `parse_9p_addr` read it.
  The two agree on a host with a port and on a bracketed
  IPv6 address with one, and on no other address.

  Key definitions include:
    * `connectEndpoint`
    * `ReadAlike`

  Key theorems include:
    * `connectEndpoint_of_bang`
    * `connectEndpoint_of_open`
    * `connectEndpoint_iff_readAlike`
-/

------------------------------------------------------------
-- Endpoints
------------------------------------------------------------

namespace Planten

open Splitting

/-
  A text that is a socket address as a whole, with an IPv6
  address in brackets and a port of digits, leads there;
  otherwise the host is looked up as it is written.  Which
  texts are IPv6 addresses is a matter of the library.
-/
def unbracketed
    (isIpv6 : String → Bool)
    (host portStr : List Char) : String :=
  match host with
  | '[' :: rest =>
      if rest.getLast? = some ']' ∧
          isIpv6 (String.ofList rest.dropLast) ∧
          portStr.all Char.isDigit then
        String.ofList rest.dropLast
      else
        String.ofList host
  | _ => String.ofList host

/- `TcpStream::connect`: the host and the port it takes. -/
def connectEndpoint
    (isIpv6 : String → Bool)
    (addr : String) : Option (String × UInt16) :=
  match rsplitOnce ':' addr.toList with
  | none => none
  | some (host, portStr) =>
      (parseU16 (String.ofList portStr)).map
        (fun port => (unbracketed isIpv6 host portStr, port))

/-
  A host with a port, or a bracketed address with one, which
  then has no sign.
-/
def ReadAlike
    (isIpv6 : String → Bool)
    (addr : String) : Prop :=
  '!' ∉ addr.toList ∧
    if addr.toList.head? = some '[' then
      ∃ v6 text port,
        addr = "[" ++ v6 ++ "]:" ++ text ∧
          ']' ∉ v6.toList ∧ isIpv6 v6 = true ∧
            IsPort text port
    else
      addr.toList.count ':' = 1

end Planten

------------------------------------------------------------
-- Hosts
------------------------------------------------------------

namespace Planten

open Splitting

variable {isIpv6 : String → Bool} {addr host : String}
variable {port : UInt16}

theorem unbracketed_of_brackets
    {v6 portStr : List Char}
    (hIpv6 : isIpv6 (String.ofList v6) = true)
    (hDigits : portStr.all Char.isDigit = true) :
    unbracketed isIpv6 ('[' :: v6 ++ [']']) portStr =
      String.ofList v6 := by
  simp only [unbracketed, List.cons_append]
  rw [List.getLast?_concat, List.dropLast_concat,
    if_pos ⟨rfl, hIpv6, hDigits⟩]

theorem unbracketed_of_plain
    {host : List Char}
    (hOpen : host.head? ≠ some '[')
    (portStr : List Char) :
    unbracketed isIpv6 host portStr =
      String.ofList host := by
  unfold unbracketed
  split
  · exact absurd rfl hOpen
  · rfl

/- The brackets are left out, or the host is as written. -/
theorem unbracketed_cases
    (isIpv6 : String → Bool)
    (host portStr : List Char) :
    unbracketed isIpv6 host portStr = String.ofList host ∨
      ∃ v6,
        host = '[' :: v6 ++ [']'] ∧
          isIpv6 (String.ofList v6) = true ∧
            portStr.all Char.isDigit = true ∧
              unbracketed isIpv6 host portStr =
                String.ofList v6 := by
  unfold unbracketed
  split
  · rename_i rest
    split
    · rename_i hBrackets
      rcases hBrackets with ⟨hLast, hIpv6, hDigits⟩
      rcases List.getLast?_eq_some_iff.mp hLast with
        ⟨v6, rfl⟩
      rw [List.dropLast_concat] at hIpv6 ⊢
      exact Or.inr ⟨v6, rfl, hIpv6, hDigits, rfl⟩
    · exact Or.inl rfl
  · exact Or.inl rfl

theorem connectEndpoint_eq_some_iff :
    connectEndpoint isIpv6 addr = some (host, port) ↔
      ∃ before text,
        addr.toList = before ++ ':' :: text ∧
          ':' ∉ text ∧
          parseU16 (String.ofList text) = some port ∧
          unbracketed isIpv6 before text = host := by
  unfold connectEndpoint
  constructor
  · intro hConnect
    split at hConnect
    · cases hConnect
    · rename_i before text hSplit
      rcases rsplitOnce_eq_some_iff.mp hSplit with
        ⟨hAddr, hText⟩
      rcases Option.map_eq_some_iff.mp hConnect with
        ⟨port', hPort, hEq⟩
      cases hEq
      exact ⟨before, text, hAddr, hText, hPort, rfl⟩
  · rintro ⟨before, text, hAddr, hText, hPort, rfl⟩
    rw [rsplitOnce_eq_some_iff.mpr ⟨hAddr, hText⟩]
    simp [hPort]

/- A host that is connected to is shorter than its text. -/
theorem length_of_connectEndpoint
    (hConnect :
      connectEndpoint isIpv6 addr = some (host, port)) :
    host.toList.length < addr.toList.length := by
  rcases connectEndpoint_eq_some_iff.mp hConnect with
    ⟨before, text, hAddr, _, _, hHost⟩
  have hBefore : host.toList.length ≤ before.length := by
    rcases unbracketed_cases isIpv6 before text with
      hSame | ⟨v6, rfl, _, _, hInner⟩
    · rw [← hHost, hSame, String.toList_ofList]
    · rw [← hHost, hInner, String.toList_ofList]
      simp only [List.length_append, List.length_cons]
      omega
  rw [hAddr, List.length_append, List.length_cons]
  omega

end Planten

------------------------------------------------------------
-- Agreement
------------------------------------------------------------

namespace Planten

open Splitting

variable {isIpv6 : String → Bool} {addr host : String}
variable {port : UInt16}

/- The last piece of a dial string is its port. -/
theorem connectEndpoint_of_bang
    (hBang : '!' ∈ addr.toList)
    (hParse : parseDial addr = .ok (host, port)) :
    connectEndpoint isIpv6 addr ≠ some (host, port) := by
  intro hConnect
  rcases connectEndpoint_eq_some_iff.mp hConnect with
    ⟨before, text, hAddr, _, hPort, _⟩
  have hText : '!' ∉ text := by
    have hNot := not_mem_of_parseU16 hPort (c := '!')
      (by decide) (by decide)
    rwa [String.toList_ofList] at hNot
  have hBefore : '!' ∈ before := by
    rw [hAddr] at hBang
    simpa [hText] using hBang
  cases hSplit : rsplitOnce '!' before with
  | none =>
      exact rsplitOnce_eq_none_iff.mp hSplit hBefore
  | some parts =>
      rcases parts with ⟨front, last⟩
      rcases rsplitOnce_eq_some_iff.mp hSplit with
        ⟨rfl, hLast⟩
      -- the piece behind the last `!` has the colon in it
      have hPiece : '!' ∉ last ++ ':' :: text := by
        simp [hLast, hText]
      have hPieces :
          dialPieces addr =
            (front.splitOn '!').map String.ofList ++
              [String.ofList (last ++ ':' :: text)] := by
        rw [dialPieces, hAddr, List.append_assoc,
          List.cons_append,
          List.splitOn_append_cons_self,
          List.splitOn_eq_singleton hPiece, List.map_append,
          List.map_singleton]
      rcases parseDial_eq_ok_iff.mp hParse with
        ⟨front', text', hParts, hPort'⟩
      have hFull :
          String.ofList (last ++ ':' :: text) ≠ "" := by
        simp
      rw [hPieces, List.filter_append] at hParts
      have hEnds := congrArg List.getLast? hParts
      have hText' :
          text' = String.ofList (last ++ ':' :: text) := by
        simpa using hEnds.symm
      apply not_mem_of_parseU16 hPort' (c := ':')
        (by decide) (by decide)
      rw [hText', String.toList_ofList]
      simp

/- A host is not the text before the colon, shifted. -/
theorem append_colon_ne_shifted
    (v6 text rest : List Char) :
    v6 ++ ':' :: text ≠ '[' :: v6 ++ ']' :: rest := by
  intro hEq
  have hFront :
      v6 ++ [':'] = '[' :: v6 := by
    have hTake := congrArg (List.take (v6.length + 1)) hEq
    rw [List.take_length_add_append] at hTake
    simpa using hTake
  have hCount := congrArg (List.count ':') hFront
  rw [List.count_append, List.count_singleton_self,
    List.count_cons_of_ne (by decide)] at hCount
  omega

/- Behind the brackets both read one port. -/
theorem connectEndpoint_of_open
    (hBang : '!' ∉ addr.toList)
    (hOpen : addr.toList.head? = some '[')
    (hParse : parseBracketed addr = .ok (host, port)) :
    connectEndpoint isIpv6 addr = some (host, port) ↔
      ReadAlike isIpv6 addr := by
  rw [ReadAlike, if_pos hOpen]
  constructor
  · intro hConnect
    refine ⟨hBang, ?_⟩
    rcases brackets_of_parseBracketed hOpen hParse with
      ⟨v6, rest, hBrackets, hClosed⟩
    rcases (parseBracketed_eq_ok_iff hBrackets hClosed).mp
      hParse with ⟨rfl, _⟩
    rcases connectEndpoint_eq_some_iff.mp hConnect with
      ⟨before, text, hAddr, hText, hPort, hHost⟩
    rcases unbracketed_cases isIpv6 before text with
      hSame | ⟨inner, rfl, hIpv6, hDigits, hInner⟩
    · have hBefore :=
        String.ofList_injective (hSame.symm.trans hHost)
      rw [hBefore, hBrackets] at hAddr
      exact absurd hAddr.symm
        (append_colon_ne_shifted v6 text rest)
    · have hEq :=
        String.ofList_injective (hInner.symm.trans hHost)
      rw [hEq] at hAddr hIpv6
      refine ⟨String.ofList v6, String.ofList text, port, ?_,
        ?_, hIpv6, ?_⟩
      · rw [← String.toList_inj, hAddr]
        simp
      · rw [String.toList_ofList]
        exact hClosed
      · apply isPort_of_parseU16_ofList hPort
        intro hSigned
        have hSign : Char.isDigit '+' = true :=
          List.all_eq_true.mp hDigits _
            (List.mem_of_mem_head? hSigned)
        exact absurd hSign (by decide)
  · rintro ⟨_, v6, text, port', rfl, hClosed, hIpv6,
      hIsPort⟩
    have hAddr :
        ("[" ++ v6 ++ "]:" ++ text).toList =
          '[' :: v6.toList ++ ']' :: ':' :: text.toList := by
      simp
    rcases (parseBracketed_eq_ok_iff hAddr hClosed).mp
      hParse with ⟨rfl, hRest⟩
    rcases hRest with
      ⟨text', _, hText', hPort⟩ | ⟨hNone, _⟩
    · cases hText'
      apply connectEndpoint_eq_some_iff.mpr
      refine ⟨'[' :: v6.toList ++ [']'], text.toList, ?_,
        ?_, hPort, ?_⟩
      · rw [hAddr]
        simp
      · have hNot := not_mem_of_parseU16 hPort (c := ':')
          (by decide) (by decide)
        rwa [String.toList_ofList] at hNot
      · apply unbracketed_of_brackets
        · rw [String.ofList_toList]
          exact hIpv6
        · exact List.all_eq_true.mpr hIsPort.digits
    · exact absurd rfl (hNone text.toList hIsPort.nonempty)

theorem connectEndpoint_of_colons
    (hOpen : addr.toList.head? ≠ some '[')
    (hColons : addr.toList.count ':' = 1)
    (hParse : parseHostPort addr = .ok (host, port)) :
    connectEndpoint isIpv6 addr = some (host, port) := by
  rcases exists_of_count_eq_one hColons with
    ⟨before, text, hAddr, _, hText⟩
  rcases (parseHostPort_eq_ok_iff hAddr hText).mp hParse
    with ⟨rfl, hPort⟩
  apply connectEndpoint_eq_some_iff.mpr
  refine ⟨before, text, hAddr, hText, hPort, ?_⟩
  apply unbracketed_of_plain
  intro hHead
  apply hOpen
  rw [hAddr, List.head?_append, hHead]
  rfl

/-
  The probe connects to the server that is mounted just if
  the address is read alike.
-/
theorem connectEndpoint_iff_readAlike
    {isIpv6 : String → Bool}
    {addr host : String}
    {port : UInt16}
    (hParse : parse9pAddr addr = .ok (host, port)) :
    connectEndpoint isIpv6 addr = some (host, port) ↔
      ReadAlike isIpv6 addr := by
  unfold parse9pAddr at hParse
  split_ifs at hParse with hBlank hBang hOpen hColons
  · apply iff_of_false
    · exact connectEndpoint_of_bang hBang hParse
    · exact fun hAlike => hAlike.1 hBang
  · exact connectEndpoint_of_open hBang hOpen hParse
  · apply iff_of_true
    · exact connectEndpoint_of_colons hOpen hColons hParse
    · rw [ReadAlike, if_neg hOpen]
      exact ⟨hBang, hColons⟩
  · cases hParse
    apply iff_of_false
    · intro hConnect
      exact lt_irrefl _
        (length_of_connectEndpoint hConnect)
    · rw [ReadAlike, if_neg hOpen]
      exact fun hAlike => hColons hAlike.2

/- A bracketed address with a port is read alike. -/
theorem connectEndpoint_of_loopback :
    parse9pAddr "[::1]:564" = .ok ("::1", 564) ∧
      connectEndpoint (fun host => host = "::1")
        "[::1]:564" = some ("::1", 564) := by
  have hParse :
      parse9pAddr "[::1]:564" = .ok ("::1", 564) := by
    decide +kernel
  refine ⟨hParse, ?_⟩
  apply (connectEndpoint_iff_readAlike hParse).mpr
  refine ⟨by decide, ?_⟩
  rw [if_pos (by decide)]
  exact ⟨"::1", "564", 564, by decide, by decide, by decide,
    isPort_repr 564⟩

/-
  An address without a port is mounted from the port of 9P,
  and the probe refuses it, whatever IPv6 addresses are.
-/
theorem not_connectEndpoint_of_no_port :
    ¬ ∃ isIpv6,
        ∀ addr host port,
          parse9pAddr addr = .ok (host, port) →
            connectEndpoint isIpv6 addr =
              some (host, port) := by
  rintro ⟨isIpv6, hAll⟩
  have hConnect :=
    hAll "localhost" "localhost" 564 (by decide +kernel)
  have hRefused :
      connectEndpoint isIpv6 "localhost" = none := rfl
  cases hRefused.symm.trans hConnect

end Planten
