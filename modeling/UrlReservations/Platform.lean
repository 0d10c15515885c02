/-
Target platforms.

The platform decides one thing: which pair of custom actions schedules the
reservations at install and uninstall time.
-/

namespace UrlReservations

/-- The platforms a source can be compiled for. -/
inductive Platform where
  | x86
  | x64
  | arm64
  deriving DecidableEq

/-- A pair of custom actions, one for installing and one for uninstalling. -/
structure ScheduledActions where
  install : String
  uninstall : String
  deriving DecidableEq

namespace Platform

/-- All platforms. -/
def all : List Platform := [x86, x64, arm64]

/-- The name of a platform. -/
def name : Platform → String
  | x86 => "x86"
  | x64 => "x64"
  | arm64 => "arm64"

/-- The platform with exactly the given name. -/
def ofName? (name : String) : Option Platform := all.find? (·.name = name)

/-- Other names that platforms go by. -/
def aliases : List (String × Platform) := [("intel", x86), ("amd64", x64)]

/--
The platform a user means by a text: its name or another name it goes
by, in letters of either case.
-/
def ofText? (text : String) : Option Platform :=
  let lower := String.ofList (text.toList.map Char.toLower)
  (ofName? lower).or (aliases.lookup lower)

/-- The custom actions that schedule the reservations on a platform. -/
def scheduledActions : Platform → ScheduledActions
  | arm64 =>
    ⟨"Wix4SchedHttpUrlReservationsInstall_ARM64", "Wix4SchedHttpUrlReservationsUninstall_ARM64"⟩
  | x86 | x64 =>
    ⟨"Wix4SchedHttpUrlReservationsInstall_X86", "Wix4SchedHttpUrlReservationsUninstall_X86"⟩

end Platform

end UrlReservations
