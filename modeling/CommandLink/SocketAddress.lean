import CommandLink.Text.Quoted
import CommandLink.Text.Numeral
import CommandLink.Path
/-!
# Socket addresses

Where a listener can be reached, and how that is written: IPv4 as four decimal numbers, IPv6 as
eight groups to base 16 of which the longest run of zeros is left out, with the port behind.

Results:
* `longestRun_le`: the run that is left out lies within the groups.
-/
namespace CommandLink

inductive IpAddress where
  | v4 (bytes : List Nat)
  | v6 (groups : List Nat) (scope : Nat)
  deriving Repr, DecidableEq

structure SocketAddress where
  host : IpAddress
  tcpPort : Nat
  deriving Repr, DecidableEq

namespace IpAddress

def loopback : IpAddress := .v4 [127, 0, 0, 1]

/-- Parts with a separator between them. -/
def joined (separator : String) (parts : List String) : String :=
  String.intercalate separator parts

/-- The first longest run of zeros, as its start and length. -/
def longestRun (groups : List Nat) : Nat × Nat :=
  let runs := (List.range groups.length).map fun i => (i, ((groups.drop i).takeWhile (· == 0)).length)
  runs.foldl (fun best r => if r.2 > best.2 then r else best) (0, 0)

def groupText (n : Nat) : String :=
  String.ofList (Text.hexDigits n)

def decimals (bytes : List Nat) : String :=
  joined "." (bytes.map Text.decimal)

/-- Eight groups, short. An IPv4 address inside keeps its decimal form. -/
def groupsText (groups : List Nat) : String :=
  match groups with
  | [0, 0, 0, 0, 0, 0xFFFF, a, b] =>
    "::ffff:" ++ decimals [a / 256, a % 256, b / 256, b % 256]
  | _ =>
    let (start, length) := longestRun groups
    if length > 1 then
      joined ":" ((groups.take start).map groupText) ++ "::"
        ++ joined ":" ((groups.drop (start + length)).map groupText)
    else joined ":" (groups.map groupText)

theorem foldl_longer_le {n : Nat} (runs : List (Nat × Nat)) (best : Nat × Nat)
    (hb : best.1 + best.2 ≤ n) (hr : ∀ r ∈ runs, r.1 + r.2 ≤ n) :
    let r := runs.foldl (fun best r => if r.2 > best.2 then r else best) best
    r.1 + r.2 ≤ n := by
  induction runs generalizing best with
  | nil => exact hb
  | cons r runs ih =>
    refine ih _ ?_ fun q hq => hr q (List.mem_cons_of_mem _ hq)
    dsimp only
    split
    · exact hr r List.mem_cons_self
    · exact hb

theorem longestRun_le (groups : List Nat) :
    (longestRun groups).1 + (longestRun groups).2 ≤ groups.length := by
  refine foldl_longer_le _ _ (Nat.zero_le _) fun r hr => ?_
  obtain ⟨i, hi, rfl⟩ := List.mem_map.1 hr
  have h := (List.takeWhile_prefix (l := groups.drop i) (· == 0)).length_le
  rw [List.length_drop] at h
  have := List.mem_range.1 hi
  simp only
  omega

end IpAddress

namespace SocketAddress

def text (a : SocketAddress) : String :=
  match a.host with
  | .v4 bytes => IpAddress.decimals bytes ++ ":" ++ Text.decimal a.tcpPort
  | .v6 groups scope =>
    "[" ++ IpAddress.groupsText groups ++ (if scope = 0 then "" else "%" ++ Text.decimal scope) ++ "]:"
      ++ Text.decimal a.tcpPort

/-- A row of digits without sign, at most `bound`. -/
def digits? (bound : Nat) (cs : List Char) : Option Nat :=
  if cs.head? = some '+' then none else Text.Numeral.read? bound cs

/-- One of the four numbers: up to three digits, none of them a leading zero. -/
def byte? (cs : List Char) : Option Nat :=
  if cs.length > 3 ∨ (cs.length > 1 ∧ cs.head? = some '0') then none else digits? 255 cs

/-- The stretches between occurrences of a separator. -/
def splitAt (separator : Char) (cs : List Char) : List (List Char) :=
  (String.ofList cs).splitOn (String.singleton separator) |>.map String.toList

def v4? (cs : List Char) : Option (List Nat) := do
  let parts ← (splitAt '.' cs).mapM byte?
  if parts.length = 4 then some parts else none

/-- A group: up to four digits to base 16. -/
def group? (cs : List Char) : Option Nat :=
  if cs.isEmpty ∨ cs.length > 4 then none
  else cs.foldlM (fun n c =>
    if '0' ≤ c ∧ c ≤ '9' then some (16 * n + (c.toNat - 48))
    else if 'a' ≤ c ∧ c ≤ 'f' then some (16 * n + (c.toNat - 87))
    else if 'A' ≤ c ∧ c ≤ 'F' then some (16 * n + (c.toNat - 55))
    else none) 0

/-- Groups between colons; the last may be an IPv4 address, which counts as two. -/
def groups? : List (List Char) → Option (List Nat)
  | [] => some []
  | [last] =>
    match v4? last with
    | some [a, b, c, d] => some [256 * a + b, 256 * c + d]
    | _ => (group? last).map ([·])
  | g :: gs => do
    let g ← group? g
    let gs ← groups? gs
    some (g :: gs)

/-- Some groups, of which there may be none at all. -/
def someGroups? (cs : List Char) : Option (List Nat) :=
  if cs.isEmpty then some [] else groups? (splitAt ':' cs)

def v6? (cs : List Char) : Option (List Nat) :=
  match (String.ofList cs).splitOn "::" with
  | [all] => do
    let gs ← someGroups? all.toList
    if gs.length = 8 then some gs else none
  | [front, back] => do
    let front ← someGroups? front.toList
    let back ← someGroups? back.toList
    let n := front.length + back.length
    if n < 8 then some (front ++ List.replicate (8 - n) 0 ++ back) else none
  | _ => none

/-- The host inside brackets, with the number of its zone behind a percent sign. -/
def scoped? (cs : List Char) : Option IpAddress := do
  match splitAt '%' cs with
  | [groups] => some (.v6 (← v6? groups) 0)
  | [groups, zone] => some (.v6 (← v6? groups) (← digits? Text.max32 zone))
  | _ => none

def ofText? (s : String) : Option SocketAddress := do
  let cs := s.toList
  let behind := (cs.reverse.takeWhile (· ≠ ':')).reverse
  let front := cs.take (cs.length - behind.length - 1)
  let tcpPort ← digits? Text.max16 behind
  match front with
  | '[' :: rest =>
    if rest.getLast? = some ']' then some ⟨← scoped? rest.dropLast, tcpPort⟩ else none
  | _ => some ⟨.v4 (← v4? front), tcpPort⟩

end SocketAddress

/-- Where a listener can be reached. -/
inductive ListenAddress where
  | tcp (address : SocketAddress)
  | unix (path : Path)
  | pipe (name : String)
  deriving Repr

namespace ListenAddress

def text : ListenAddress → String
  | tcp a => "tcp://" ++ a.text
  | unix p => "unix://" ++ p.text
  | pipe name => name

end ListenAddress
end CommandLink
