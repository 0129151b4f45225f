/-!
# Places of the host

The directories and devices that are always there.

* `Place.resolve`: the directory a path leads to.
-/

namespace Stepwise.Host.Place

/-- The directories. -/
def directories : List String :=
  ["/", "/bin", "/dev", "/etc", "/home", "/lib", "/opt", "/proc", "/root", "/run", "/sbin", "/srv",
   "/sys", "/tmp", "/usr", "/usr/bin", "/usr/lib", "/usr/local", "/usr/local/bin", "/usr/sbin",
   "/usr/share", "/var", "/var/lib", "/var/log", "/var/tmp"]

/-- The devices that can be read. -/
def devices : List String := ["/dev/null", "/dev/stdin", "/dev/stdout", "/dev/stderr", "/dev/tty"]

/-- The names between the slashes of a path. -/
def names (path : List Char) : List (List Char) :=
  (path.splitOn '/').filter (!·.isEmpty)

/-- The names of a path without dots: one dot stays, two dots lead back. -/
def walk (start : List (List Char)) (ns : List (List Char)) : List (List Char) :=
  ns.foldl
    (fun at_ n => if n == ['.'] then at_ else if n == ['.', '.'] then at_.dropLast else at_ ++ [n])
    start

/-- A path without dots, seen from a directory. -/
def resolve (directory path : List Char) : List Char :=
  let start := if path.head? == some '/' then [] else names directory
  '/' :: List.intercalate ['/'] (walk start (names path))

/-- A path leads to a directory. -/
def isDirectory (directory path : List Char) : Bool :=
  !path.isEmpty && directories.contains (String.ofList (resolve directory path))

/-- A path leads to a device. -/
def isDevice (path : List Char) : Bool := devices.contains (String.ofList path)

/-- The directory that holds what a path leads to. -/
def parent (path : List Char) : List Char :=
  match (path.reverse.dropWhile (· != '/')).reverse with
  | [] => ['.']
  | p => p

end Stepwise.Host.Place
