import Caspian.Netip.Addr

/-!
# Commands, results and the words the tools answer with

Every change `netcfg` makes is a `Command` handed to a runner, and every
decision about a failed command is made on the text the tool printed.  This
module holds the command itself, the allowlist it is checked against, the two
names a command is known by (`commandLine`, `runnerKey`), and the two readings
of a failure: the object was already there, or it was already gone.
-/

namespace Caspian.Netcfg

open Verified

/-- One command line, what it is fed on standard input, and why it exists. -/
structure Command where
  path : String
  args : List String
  stdin : String := ""
  why : String := ""
  deriving DecidableEq, Repr, Inhabited

/-- What a tool printed and its exit status. -/
structure Result where
  stdout : String := ""
  stderr : String := ""
  exitCode : Int := 0
  deriving DecidableEq, Repr, Inhabited

/-- The answer to a command: its result, and the text of the error if there
was one. -/
abbrev Reply := Result × Option String

def binIP : String := "ip"
def binIw : String := "iw"
def binNft : String := "nft"
def binSysctl : String := "sysctl"
def binNmcli : String := "nmcli"

/-- The binaries a Linux command may name. -/
def allowedBinaries : List String := [binIP, binIw, binNft, binSysctl, binNmcli]

namespace Command

def isZero (c : Command) : Bool := c.path = "" && c.args.isEmpty

/-- `Command{}`, the inverse of a step that has none. -/
def zero : Command := ⟨"", [], "", ""⟩

/-- One argument as `Command.String` prints it. -/
def argText (a : String) : String :=
  if a = "" ∨ ' ' ∈ a.toList ∨ '\t' ∈ a.toList ∨ '"' ∈ a.toList ∨
      '\u0027' ∈ a.toList then Text.quote a
  else a

/-- `Command.String`. -/
def text (c : Command) : String :=
  if c.isZero then "(none)"
  else
    c.path ++ String.join (c.args.map fun a => " " ++ argText a) ++
      (if c.stdin = "" then ""
        else " <<(" ++ Netip.itoa c.stdin.utf8ByteSize ++ " bytes on stdin)")

end Command

/-- The argument position, if any, that holds a NUL byte. -/
def nulArgument (args : List String) : Option Nat :=
  args.findIdx? fun a => '\u0000' ∈ a.toList

/-- `ValidateCommand`: the error text, or `none` for a command that may run. -/
def validateCommand (c : Command) : Option String :=
  if c.isZero then some "netcfg: empty command"
  else if c.path ∉ allowedBinaries then
    some ("netcfg: command names a binary that is not on the allowlist: " ++
      Text.quote c.path)
  else
    (nulArgument c.args).map fun i =>
      "netcfg: argument " ++ Netip.itoa i ++ " of " ++ Text.quote c.path ++
        " contains a NUL byte"

/-! ## Names of a command -/

/-- `CommandLine`: the path and the arguments, without standard input. -/
def commandLine (c : Command) : String :=
  if c.args.isEmpty then c.path
  else c.path ++ " " ++ String.intercalate " " c.args

/-- `RunnerKey`: the command line and a digest of what is fed on standard
input.  `digest` stands for the hexadecimal SHA-256 head. -/
def runnerKey (digest : String → String) (c : Command) : String :=
  if c.stdin = "" then commandLine c
  else commandLine c ++ " <stdin:" ++ digest c.stdin ++ ">"

/-! ## Reading a failure -/

/-- What the tools print when the object a command would create is there. -/
def alreadyExistsMarkers : List String := ["file exists", "object exists"]

/-- What the tools print when the object a command would remove is gone. -/
def notFoundMarkers : List String :=
  ["no such device", "no such file or directory", "no such process",
    "cannot find device", "cannot assign requested address", "not in table"]

/-- The failure's text holds one of the markers. -/
def failsWith (markers : List String) (res : Result) (err : Option String) :
    Bool :=
  match err with
  | none => false
  | some msg =>
    let hay := Text.toLower (res.stderr ++ " " ++ msg)
    markers.any fun m => Text.contains hay m

/-- `IsAlreadyExists`. -/
def isAlreadyExists (res : Result) (err : Option String) : Bool :=
  failsWith alreadyExistsMarkers res err

/-- `IsNotFound`. -/
def isNotFound (res : Result) (err : Option String) : Bool :=
  failsWith notFoundMarkers res err

/-- `commandRemoves` over the arguments: the first verb decides. -/
def removesArgs : List String → Bool
  | [] => false
  | a :: rest =>
    if a = "del" ∨ a = "delete" then true
    else if a = "add" ∨ a = "replace" ∨ a = "set" then false
    else removesArgs rest

/-- `commandRemoves`: the command's job is to take something away. -/
def commandRemoves (c : Command) : Bool := removesArgs c.args

/-- A failed removal whose object was already gone. -/
def alreadyGone (c : Command) (reply : Reply) : Bool :=
  reply.2.isSome && commandRemoves c && isNotFound reply.1 reply.2

/-- A number between two texts hides no marker: a marker holds no digit, so it
would have to stand in one of the two. -/
theorem failsWith_number {markers : List String} {pre post : String} {n : Nat}
    (hm : ∀ m ∈ markers, ∀ c ∈ Text.decimalDigits, c ∉ m.toList)
    (hpre : ∀ m ∈ markers, Text.contains (Text.toLower (" " ++ pre)) m = false)
    (hpost : ∀ m ∈ markers, Text.contains (Text.toLower post) m = false) :
    failsWith markers {} (some (pre ++ Netip.itoa n ++ post)) = false := by
  simp only [failsWith, List.any_eq_false]
  intro m hmem hin
  have hdig : ∀ x ∈ (Netip.itoa n).toList.map Text.lowerRune, x ∉ m.toList := by
    intro x hx
    obtain ⟨c, hc, rfl⟩ := List.mem_map.mp hx
    rw [Text.lowerRune_digit (Netip.mem_itoa hc)]
    exact hm m hmem c (Netip.mem_itoa hc)
  have hne : (Netip.itoa n).toList.map Text.lowerRune ≠ [] := by simp [Netip.itoa]
  have hsplit : m.toList <:+:
      (" " ++ pre).toList.map Text.lowerRune ++ (Netip.itoa n).toList.map Text.lowerRune ++
        post.toList.map Text.lowerRune := by
    simpa [Text.contains, Text.toLower] using hin
  rcases Text.infix_of_separators hne hdig hsplit with h | h
  · have := hpre m hmem
    simp [Text.contains, Text.toLower] at this
    exact this (by simpa using h)
  · have := hpost m hmem
    simp [Text.contains, Text.toLower] at this
    exact this h

/-- A command refused for a NUL byte is not read as one whose object is gone. -/
theorem isNotFound_nul {path : String} (hpath : path ∈ allowedBinaries) (i : Nat) :
    isNotFound {} (some ("netcfg: argument " ++ Netip.itoa i ++
      (" of " ++ Text.quote path ++ " contains a NUL byte"))) = false := by
  refine failsWith_number (by decide) (by decide) ?_
  revert path
  decide

/-! ## Interface names -/

/-- A character an interface name may hold. -/
def ifaceRune (c : Char) : Bool :=
  c.isAlphanum || c ∈ ['_', '.', ':', '-']

/-- `ValidInterfaceName`. -/
def validInterfaceName (name : String) : Bool :=
  1 ≤ name.toList.length && name.toList.length ≤ 15 && name.toList.all ifaceRune

/-- A character a Windows interface name may hold. -/
def windowsIfaceRune (c : Char) : Bool :=
  c.isAlphanum || c ∈ [' ', '_', '.', '(', ')', '#', '*', ':', '-']

/-- The names `windowsIfaceNamePattern` accepts. -/
def validWindowsInterfaceName (name : String) : Bool :=
  1 ≤ name.toList.length && name.toList.length ≤ 255 &&
    name.toList.all windowsIfaceRune

/-- A valid interface name holds no quote, blank or line break. -/
theorem not_mem_of_validInterfaceName {name : String}
    (h : validInterfaceName name = true) {c : Char} (hc : ifaceRune c = false) :
    c ∉ name.toList := by
  intro hmem
  simp only [validInterfaceName, Bool.and_eq_true, List.all_eq_true] at h
  rw [h.2 c hmem] at hc
  exact Bool.noConfusion hc

end Caspian.Netcfg
