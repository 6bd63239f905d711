import Empyralis.Kernel.PathGuard
import Empyralis.Lib.NodePath
import Empyralis.Lib.Occurrence

/-! The paths that the gateway never opens: `checkFilesystemPathPolicy`.

    The file system is a tree that does not change between the check and the opening. A path that does not exist is
    checked as its name in its parent directory, while a link that dangles there is followed by the call that creates
    the file; and a `..` is taken off the text before the check, while the system goes up from where the steps before
    it lead.

    `limit` is the number of links that the system follows in one path, `here` the directory of the process, and
    `rounds` bounds the loop of `realpathSync`, which may not end. -/

namespace Empyralis.Gateway.ProtectedPaths

open FileTree NodePath Occurrence
open Kernel.PathGuard (pathOf)

/-- `HARD_PROTECTED_PATH_MARKERS` -/
def hardProtectedPathMarkers : List String :=
  ["/.empyralis/state/vault", "/.empyralis/state", "/.ssh", "/.gnupg", "/etc/empyralis",
    "/var/lib/empyralis/agent-computer", "/.orion-stack"]

section

variable (tree : FileTree) (limit : Nat) (here : Location) (home : String) (toLowerCase : String → String)
  (rounds : Nat)

def includes (text part : String) : Bool := occurs part.toList text.toList

def matchesProtectedPathMarker (normalizedLowerPath : String) : Bool :=
  hardProtectedPathMarkers.any (includes normalizedLowerPath)

/-- The location contains a protected marker. -/
def Protected (loc : Location) : Prop := matchesProtectedPathMarker (toLowerCase (locationText loc)) = true

/-- What a call that opens what the path names, or creates it, comes to is not protected. -/
def Safe (target : Path) : Prop := ∀ loc, tree.resolve true limit here target = some loc → ¬Protected toLowerCase loc

end

variable {tree : FileTree} {limit : Nat} {here loc found : Location} {home : String} {toLowerCase : String → String}
  {target : Path} {rounds : Nat}

/-! ### Canonical paths -/

end Empyralis.Gateway.ProtectedPaths
