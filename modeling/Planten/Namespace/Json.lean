import Planten.Library.PrefixFree
import Planten.Namespace.Mounts

/-
  The JSON of a namespace, as it is printed for the stored
  file: members and elements on lines of their own, two
  blanks deeper than what they are in, and strings with
  their control characters escaped.

  Nothing but the printed text of a namespace is read here.

  Key definitions include:
    * `jsonString`
    * `Mount.pretty`
    * `Namespace.pretty`
    * `serdeJson`

  Key theorems include:
    * `prefixFree_jsonString`
    * `prefixFree_array`
    * `Namespace.prefixFree_pretty`
    * `reads_serdeJson`
-/

------------------------------------------------------------
-- Strings
------------------------------------------------------------

namespace Planten

/- What stands behind the backslash of an escape. -/
def escapeTail (c : Char) : List Char :=
  match c.toNat with
  | 0x08 => ['b']
  | 0x09 => ['t']
  | 0x0a => ['n']
  | 0x0c => ['f']
  | 0x0d => ['r']
  | 0x22 => ['"']
  | 0x5c => ['\\']
  | code =>
      ['u', '0', '0', Nat.digitChar (code / 16),
        Nat.digitChar (code % 16)]

/- The characters that are escaped in a string. -/
def IsEscaped (c : Char) : Prop :=
  c = '"' ∨ c = '\\' ∨ c.toNat < 0x20

instance IsEscaped.decidable (c : Char) :
    Decidable (IsEscaped c) :=
  inferInstanceAs (Decidable (_ ∨ _))

def escapeChar (c : Char) : List Char :=
  if IsEscaped c then '\\' :: escapeTail c else [c]

def jsonString (s : String) : List Char :=
  ['"'] ++ (s.toList.flatMap escapeChar ++ ['"'])

end Planten

------------------------------------------------------------
-- Namespaces
------------------------------------------------------------

namespace Planten

def newline (indent : Nat) : List Char :=
  '\n' :: List.replicate (2 * indent) ' '

/- The items after the first one, and the closing bracket. -/
def blockRest
    (right : Char)
    (indent : Nat)
    (items : List (List Char)) : List Char :=
  items.flatMap (fun item =>
    ',' :: newline (indent + 1) ++ item) ++
    (newline indent ++ [right])

/- Items between brackets, at some depth. -/
def block
    (left right : Char)
    (indent : Nat) :
    List (List Char) → List Char
| [] => [left, right]
| item :: items =>
    left :: newline (indent + 1) ++
      (item ++ blockRest right indent items)

def array
    (indent : Nat)
    (items : List (List Char)) : List Char :=
  block '[' ']' indent items

def object
    (indent : Nat)
    (members : List (List Char)) : List Char :=
  block '\x7b' '\x7d' indent members

def member
    (name : String)
    (value : List Char) : List Char :=
  jsonString name ++ (':' :: ' ' :: value)

/- A mount is an object with one member, named by its kind. -/
def Mount.pretty : Mount → List Char
| bind path =>
    object 3 [member "Bind"
      (object 4 [member "path" (jsonString path)])]
| union paths =>
    object 3 [member "Union"
      (object 4 [member "paths"
        (array 5 (paths.map jsonString))])]
| p9 addr path =>
    object 3 [member "P9"
      (object 4 [member "addr" (jsonString addr),
        member "path" (jsonString path)])]

def MountEntry.pretty (entry : MountEntry) : List Char :=
  object 2 [member "target" (jsonString entry.target),
    member "mount" entry.mount.pretty]

def Namespace.pretty (ns : Namespace) : List Char :=
  object 0 [member "mounts"
    (array 1 (ns.mounts.map MountEntry.pretty))]

end Planten

------------------------------------------------------------
-- Prefix-Freeness
------------------------------------------------------------

namespace Planten

/- The value of a hexadecimal digit. -/
def hexValue (c : Char) : Nat :=
  if c.isDigit then c.toNat - 0x30 else c.toNat - 0x57

/- The character an escape stands for. -/
def unescape : List Char → Option Char
| 'b' :: _ => some (Char.ofNat 0x08)
| 't' :: _ => some (Char.ofNat 0x09)
| 'n' :: _ => some (Char.ofNat 0x0a)
| 'f' :: _ => some (Char.ofNat 0x0c)
| 'r' :: _ => some (Char.ofNat 0x0d)
| '"' :: _ => some '"'
| '\\' :: _ => some '\\'
| 'u' :: '0' :: '0' :: high :: low :: _ =>
    some (Char.ofNat (16 * hexValue high + hexValue low))
| _ => none

/- The first character of the text of a string. -/
def readChar : List Char → Option Char
| '\\' :: rest => unescape rest
| c :: _ => some c
| [] => none

theorem hexValue_digitChar :
    ∀ n < 16, hexValue (Nat.digitChar n) = n := by
  decide

theorem IsEscaped.toNat_lt
    {c : Char}
    (hEscaped : IsEscaped c) :
    c.toNat < 0x80 := by
  rcases hEscaped with rfl | rfl | hControl
  · decide
  · decide
  · omega

/- An escape stands for the character it is written for. -/
theorem unescape_escapeTail
    {c : Char}
    (hEscaped : IsEscaped c)
    (rest : List Char) :
    unescape (escapeTail c ++ rest) = some c := by
  have hSmall := hEscaped.toNat_lt
  unfold escapeTail
  split
  case h_8 =>
    have hHigh := hexValue_digitChar (c.toNat / 16)
      (by omega)
    have hLow := hexValue_digitChar (c.toNat % 16)
      (by omega)
    change some (Char.ofNat (16 * hexValue _ + hexValue _))
      = some c
    rw [hHigh, hLow, Nat.div_add_mod, Char.ofNat_toNat]
  all_goals
    rename_i hCode
    rw [← Char.ofNat_toNat c, hCode]
    rfl

theorem readChar_escapeChar
    (c : Char)
    (rest : List Char) :
    readChar (escapeChar c ++ rest) = some c := by
  unfold escapeChar
  split_ifs with hEscaped
  · exact unescape_escapeTail hEscaped rest
  · apply readChar.eq_2
    intro hBackslash
    exact hEscaped (Or.inr (Or.inl hBackslash))

theorem prefixFree_escapeChar :
    PrefixFree escapeChar :=
  PrefixFree.of_read readChar_escapeChar

/- An escaped character does not begin with the quote. -/
theorem escapeChar_ne_quote
    (c : Char)
    (r s : List Char) :
    escapeChar c ++ r ≠ ['"'] ++ s := by
  intro hEq
  unfold escapeChar at hEq
  split_ifs at hEq with hEscaped
  · have hHead := (List.cons.inj hEq).1
    exact absurd hHead (by decide)
  · have hHead := (List.cons.inj hEq).1
    exact hEscaped (Or.inl hHead)

theorem toList_injective :
    Function.Injective String.toList := by
  intro s t hEq
  exact String.toList_inj.mp hEq

theorem prefixFree_jsonString :
    PrefixFree jsonString := by
  have hChars :=
    prefixFree_escapeChar.flatMap escapeChar_ne_quote
  exact (hChars.comp toList_injective).prepend ['"']

end Planten

------------------------------------------------------------
-- Reading Blocks
------------------------------------------------------------

namespace Planten

/- A member is read off by its name and then its value. -/
theorem member_cancel
    {name name' : String}
    {value value' r s : List Char}
    (hEq :
      member name value ++ r = member name' value' ++ s) :
    name = name' ∧ value ++ r = value' ++ s := by
  unfold member at hEq
  rw [List.append_assoc, List.append_assoc] at hEq
  rcases prefixFree_jsonString _ _ _ _ hEq with
    ⟨hName, hRest⟩
  exact ⟨hName, (List.cons.inj (List.cons.inj hRest).2).2⟩

section Blocks

variable {left right : Char}
variable {indent : Nat}
variable {item item' : List Char}
variable {items items' : List (List Char)}
variable {r s : List Char}

theorem block_cancel
    (hEq :
      block left right indent (item :: items) ++ r =
        block left right indent (item' :: items') ++ s) :
    item ++ (blockRest right indent items ++ r) =
      item' ++ (blockRest right indent items' ++ s) := by
  simp only [block, List.append_assoc] at hEq
  exact List.append_cancel_left hEq

theorem blockRest_cancel
    (hEq :
      blockRest right indent (item :: items) ++ r =
        blockRest right indent (item' :: items') ++ s) :
    item ++ (blockRest right indent items ++ r) =
      item' ++ (blockRest right indent items' ++ s) := by
  simp only [blockRest, List.flatMap_cons,
    List.append_assoc] at hEq ⊢
  exact List.append_cancel_left hEq

/- A bracket that closes at once is not one that does not. -/
theorem block_nil_ne_cons
    (hRight : right ≠ '\n') :
    block left right indent [] ++ r ≠
      block left right indent (item :: items) ++ s := by
  intro hEq
  have hTail := (List.cons.inj hEq).2
  exact hRight (List.cons.inj hTail).1

end Blocks

/- What follows the first value of a list is told apart. -/
theorem prefixFree_blockRest
    {α : Type}
    {f : α → List Char}
    (hFree : PrefixFree f)
    (right : Char)
    (indent : Nat) :
    PrefixFree (fun items : List α =>
      blockRest right indent (items.map f)) := by
  have hStop (a : α) (r s : List Char) :
      (',' :: newline (indent + 1) ++ f a) ++ r ≠
        (newline indent ++ [right]) ++ s := by
    intro hEq
    exact absurd (List.cons.inj hEq).1 (by decide)
  have hItems :=
    (hFree.prepend (',' :: newline (indent + 1))).flatMap
      hStop
  simpa only [blockRest, List.flatMap_map] using hItems

/- Lists of values in brackets keep the code of the values. -/
theorem prefixFree_array
    {α : Type}
    {f : α → List Char}
    (hFree : PrefixFree f)
    (indent : Nat) :
    PrefixFree (fun items : List α =>
      array indent (items.map f)) := by
  intro items items' r s hEq
  cases items with
  | nil =>
      cases items' with
      | nil => exact ⟨rfl, List.append_cancel_left hEq⟩
      | cons b bs =>
          exact absurd hEq (block_nil_ne_cons (by decide))
  | cons a as =>
      cases items' with
      | nil =>
          exact absurd hEq.symm
            (block_nil_ne_cons (by decide))
      | cons b bs =>
          rcases hFree _ _ _ _ (block_cancel hEq) with
            ⟨rfl, hRest⟩
          rcases prefixFree_blockRest hFree _ _ _ _ _ _
            hRest with ⟨rfl, hEnd⟩
          exact ⟨rfl, hEnd⟩

end Planten

------------------------------------------------------------
-- Reading Namespaces
------------------------------------------------------------

namespace Planten

theorem Mount.prefixFree_pretty :
    PrefixFree Mount.pretty := by
  intro mount mount' r s hEq
  cases mount <;> cases mount'
  case bind.bind path path' =>
    have hKind := (member_cancel (block_cancel hEq)).2
    have hPath := (member_cancel (block_cancel hKind)).2
    rcases prefixFree_jsonString _ _ _ _ hPath with
      ⟨rfl, hRest⟩
    have hOuter := List.append_cancel_left hRest
    exact ⟨rfl, List.append_cancel_left hOuter⟩
  case union.union paths paths' =>
    have hKind := (member_cancel (block_cancel hEq)).2
    have hPaths := (member_cancel (block_cancel hKind)).2
    rcases prefixFree_array prefixFree_jsonString _
      _ _ _ _ hPaths with ⟨rfl, hRest⟩
    have hOuter := List.append_cancel_left hRest
    exact ⟨rfl, List.append_cancel_left hOuter⟩
  case p9.p9 addr path addr' path' =>
    have hKind := (member_cancel (block_cancel hEq)).2
    have hAddr := (member_cancel (block_cancel hKind)).2
    rcases prefixFree_jsonString _ _ _ _ hAddr with
      ⟨rfl, hMore⟩
    have hPath := (member_cancel (blockRest_cancel hMore)).2
    rcases prefixFree_jsonString _ _ _ _ hPath with
      ⟨rfl, hRest⟩
    have hOuter := List.append_cancel_left hRest
    exact ⟨rfl, List.append_cancel_left hOuter⟩
  -- different kinds have different names
  all_goals
    have hKind := (member_cancel (block_cancel hEq)).1
    exact absurd hKind (by decide)

theorem MountEntry.prefixFree_pretty :
    PrefixFree MountEntry.pretty := by
  rintro ⟨target, mount⟩ ⟨target', mount'⟩ r s hEq
  have hTarget := (member_cancel (block_cancel hEq)).2
  rcases prefixFree_jsonString _ _ _ _ hTarget with
    ⟨rfl, hMore⟩
  have hMount := (member_cancel (blockRest_cancel hMore)).2
  rcases Mount.prefixFree_pretty _ _ _ _ hMount with
    ⟨rfl, hRest⟩
  exact ⟨rfl, List.append_cancel_left hRest⟩

theorem Namespace.prefixFree_pretty :
    PrefixFree Namespace.pretty := by
  rintro ⟨mounts⟩ ⟨mounts'⟩ r s hEq
  have hMounts := (member_cancel (block_cancel hEq)).2
  rcases prefixFree_array MountEntry.prefixFree_pretty _
    _ _ _ _ hMounts with ⟨rfl, hRest⟩
  exact ⟨rfl, List.append_cancel_left hRest⟩

/- The text printed, and the namespace a text is printed of. -/
noncomputable def serdeJson : Serde where
  toStringPretty ns := String.ofList ns.pretty
  fromStr :=
    Function.partialInv (fun ns : Namespace =>
      String.ofList ns.pretty)

theorem reads_serdeJson : serdeJson.Reads := by
  have hInj :
      Function.Injective (fun ns : Namespace =>
        String.ofList ns.pretty) := by
    intro ns ns' hEq
    apply Namespace.prefixFree_pretty.injective
    exact String.ofList_injective hEq
  exact Function.partialInv_left hInj

end Planten
