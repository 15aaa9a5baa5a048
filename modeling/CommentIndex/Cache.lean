import CommentIndex.Outline
import CommentIndex.Path

/-!
# The cache of outlines

A `Cache` keeps the outline of each file under one of the paths that name the file. Outlines are
read while other things go on, so every reading takes a ticket when it begins, and its result is
kept only if no later ticket has been given out for the same path and the path has not been
removed since. Which file a path names is told from outside, by the `file` that goes with a path.
-/

namespace CommentIndex

/-- The outlines of files, and the readings that have begun. -/
structure Cache where
  /-- The outlines, each under the path by which its file was last asked for. -/
  outlines : KeyedList Path Outline := .empty
  /-- The path under which each file is kept. -/
  holders : KeyedList Path Path := .empty
  /-- The latest ticket of each path that is being read. -/
  inFlight : KeyedList Path Nat := .empty
  /-- How many tickets have been given out. -/
  issued : Nat := 0
deriving DecidableEq, Repr, Inhabited

namespace Cache

/-- Nothing kept and nothing begun. -/
def empty : Cache := {}

/-- The outline of a file, under whatever path it is kept. -/
def lookup? (cache : Cache) (file : Path) : Option Outline :=
  (cache.holders.find? file).bind cache.outlines.find?

/-- Keeps an outline under a path. -/
def keep (cache : Cache) (path file : Path) (outline : Outline) : Cache :=
  { cache with
    outlines := cache.outlines.insert path outline
    holders := cache.holders.insert file path }

/-- Puts an empty outline under a path, in place of whatever was kept for its file under any
path. -/
def displace (cache : Cache) (path file : Path) : Cache :=
  let outlines :=
    match cache.holders.find? file with
    | some holder => cache.outlines.erase holder
    | none => cache.outlines
  { cache with outlines := outlines, holders := cache.holders.erase file }.keep path file .empty

/-- The path under which a file is kept, or else the given one. -/
def holderOr (cache : Cache) (path file : Path) : Path :=
  (cache.holders.find? file).getD path

/-- The ticket that is given out next. -/
def nextTicket (cache : Cache) : Nat :=
  cache.issued + 1

/-- Gives out a ticket for a path. -/
def issue (cache : Cache) (path : Path) : Cache :=
  { cache with
    issued := cache.nextTicket
    inFlight := cache.inFlight.insert path cache.nextTicket }

/-- Whether a ticket is the latest of its path. -/
def isCurrent (cache : Cache) (path : Path) (ticket : Nat) : Bool :=
  cache.inFlight.find? path = some ticket

/-- Ends the reading of a path. -/
def settle (cache : Cache) (path : Path) : Cache :=
  { cache with inFlight := cache.inFlight.erase path }

/-- Keeps what was read with a ticket, if that is the latest. -/
def land (cache : Cache) (path file : Path) (ticket : Nat) (outline : Outline) : Cache :=
  if cache.isCurrent path ticket then (cache.settle path).keep path file outline else cache

/-- Ends a reading that failed, if its ticket is the latest: what was kept before comes back in
the place of what is kept now. -/
def giveUp (cache : Cache) (path : Path) (ticket : Nat) (before : Option Outline) : Cache :=
  if cache.isCurrent path ticket then
    let settled := cache.settle path
    match before with
    | some outline =>
      if settled.outlines.contains path then
        { settled with outlines := settled.outlines.insert path outline }
      else settled
    | none => settled
  else cache

/-- Drops a path and the file it names, with their readings. -/
def remove (cache : Cache) (path file : Path) : Cache :=
  let holder := cache.holderOr path file
  { cache with
    outlines := (cache.outlines.erase path).erase holder
    holders := cache.holders.erase file
    inFlight := (cache.inFlight.erase path).erase holder }

/-- Drops everything. Readings that have begun do not land any more. -/
def clear (cache : Cache) : Cache :=
  { empty with issued := cache.issued }

end Cache

end CommentIndex
