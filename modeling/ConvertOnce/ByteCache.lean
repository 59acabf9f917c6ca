import ConvertOnce.FileSystem.Calls
import ConvertOnce.Path.Canonical
import ConvertOnce.Table

/-!
# A cache of file contents

A `ByteCache` remembers what was read from a path or written to it, until it is told to forget.  All
spellings of a path with one canonical form share what is remembered.  What is remembered is served
without a look at the file system, also when the file has changed since.
-/

namespace ConvertOnce

/-- The contents remembered under canonical paths. -/
structure ByteCache where
  /-- What is remembered. -/
  remembered : Table String Bytes

namespace ByteCache

/-- Nothing remembered. -/
def empty : ByteCache := ⟨.empty⟩

instance : Inhabited ByteCache := ⟨empty⟩

/-- What is remembered of a path. -/
def get? (cache : ByteCache) (path : String) : Option Bytes :=
  cache.remembered.get? (canonicalText path)

/-- Something is remembered of a path. -/
def remembers (cache : ByteCache) (path : String) : Bool := (cache.get? path).isSome

/-- Remembers the contents of a path. -/
def remember (cache : ByteCache) (path : String) (bytes : Bytes) : ByteCache :=
  ⟨cache.remembered.insert (canonicalText path) bytes⟩

/-- Forgets a path. -/
def forget (cache : ByteCache) (path : String) : ByteCache :=
  ⟨cache.remembered.erase (canonicalText path)⟩

/-- The contents of a path: what is remembered, or else what is read and from then on
remembered. -/
def read (cache : ByteCache) (fs : FileSystem) (path : String) :
    Except Fault (Bytes × ByteCache) :=
  match cache.get? path with
  | some bytes => .ok (bytes, cache)
  | none => do
    let bytes ← fs.read (canonicalText path)
    return (bytes, cache.remember path bytes)

/-- Writes the contents of a path and remembers them. -/
def write (cache : ByteCache) (fs : FileSystem) (path : String) (bytes : Bytes) :
    Except Fault (FileSystem × ByteCache) := do
  let fs ← fs.write (canonicalText path) bytes
  return (fs, cache.remember path bytes)

/-- The path is remembered or leads to something. -/
def contains (cache : ByteCache) (fs : FileSystem) (path : String) : Bool :=
  cache.remembers path || fs.leadsSomewhere (canonicalText path)

end ByteCache

end ConvertOnce
