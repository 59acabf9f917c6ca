import ConvertOnce.Proofs.ByteCache
import ConvertOnce.Proofs.FileSystem.Refusals
import Mathlib.Data.List.DropRight

/-!
# What a cache remembers of its calls

`ByteCache.snapshot` reads off the calls that were made of a cache what is to be remembered of a
path: the bytes that were last written to it since it was last forgotten or, where none were, those
that were first read.  What a call does to the cache (`ByteCache.Turn.get?_cacheAfter`) is what one
more call does to the snapshots (`ByteCache.snapshot_concat`), so a cache remembers its snapshots
and nothing else (`ByteCache.History.get?_eq_snapshot`), whatever becomes of the files between its
calls.

What the calls of a cache are answered with follows from this (`ByteCache.History.keepsSnapshots`).
-/

namespace ConvertOnce.ByteCache

/-! ### Turns -/

/-- A call of a cache, with the cache and the files as the call found them. -/
structure Turn where
  call : Call
  cache : ByteCache
  files : FileSystem

namespace Turn

/-- The cache after the call, be it successful or not. -/
def cacheAfter (t : Turn) : ByteCache := (t.call.perform (t.cache, t.files)).1

/-- The call was to forget the path. -/
def forgets (key : String) (t : Turn) : Bool :=
  match t.call with
  | .forget path => canonicalText path = key
  | _ => false

/-- The bytes that the call has written to the path. -/
def written? (key : String) (t : Turn) : Option Bytes :=
  match t.call with
  | .write path bytes =>
    if canonicalText path = key ∧ (t.cache.write t.files path bytes).isOk then some bytes else none
  | _ => none

/-- The bytes that the call has answered as those of the path. -/
def answered? (key : String) (t : Turn) : Option Bytes :=
  match t.call with
  | .read path =>
    if canonicalText path = key then Prod.fst <$> (t.cache.read t.files path).toOption else none
  | _ => none

end Turn

/-- The turns of a cache that was empty at first.  From one turn to the next the cache is the same,
and the files may have changed in any way. -/
inductive History : List Turn → ByteCache → Prop
  | start : History [] .empty
  | turn {turns : List Turn} {cache : ByteCache} {t : Turn} (earlier : History turns cache)
      (resumed : t.cache = cache) : History (turns ++ [t]) t.cacheAfter

/-! ### Snapshots -/

/-- The turns since the path was last forgotten; all of them, if it never was. -/
def sinceForgotten (key : String) (turns : List Turn) : List Turn :=
  turns.rtakeWhile fun t => !t.forgets key

/-- What turns leave to be remembered of a path: since it was last forgotten, the bytes of the
latest successful write or else of the first successful read. -/
def snapshot (key : String) (turns : List Turn) : Option Bytes :=
  ((sinceForgotten key turns).reverse.findSome? (Turn.written? key)).or
    ((sinceForgotten key turns).findSome? (Turn.answered? key))

variable {cache : ByteCache} {fs files : FileSystem} {path key : String} {bytes : Bytes} {t : Turn}
  {turns : List Turn}

/-- **What one more turn does to a snapshot**: to forget the path takes it away, to write to the
path replaces it, and to read the path adds one where there is none. -/
theorem snapshot_concat (key : String) (turns : List Turn) (t : Turn) :
    snapshot key (turns ++ [t]) =
      if t.forgets key then none
      else (t.written? key).or ((snapshot key turns).or (t.answered? key)) := by
  rw [snapshot, sinceForgotten, List.rtakeWhile_concat]
  -- The new turn is the last one: it is met first when the writes are looked for from the back, and
  -- last when the answers are.
  cases hforgets : t.forgets key with
  | true => simp
  | false =>
    have hlast : List.findSome? (Turn.answered? key) [t] = t.answered? key := by simp
    have hfirst : ∀ earlier, List.findSome? (Turn.written? key) (t :: earlier)
        = (t.written? key).or (earlier.findSome? (Turn.written? key)) := by
      intro earlier
      rw [List.findSome?_cons]
      cases t.written? key <;> rfl
    simp only [Bool.not_false, if_true, Bool.false_eq_true, if_false]
    rw [List.reverse_concat, hfirst, List.findSome?_append, hlast, snapshot, sinceForgotten,
      Option.or_assoc, Option.or_assoc]

/-! ### What a call does to what is remembered -/

namespace Turn

theorem get?_cacheAfter_read (hcall : t.call = .read path) (key : String) :
    t.cacheAfter.remembered.get? key = (t.cache.remembered.get? key).or (t.answered? key) := by
  rw [cacheAfter, hcall, Call.perform, answered?, hcall]
  dsimp only
  cases hget : t.cache.get? path with
  | some bytes =>
    -- The path is remembered, and the bytes that are answered are those that are remembered.
    rw [read_of_get?_eq_some hget]
    by_cases hkey : canonicalText path = key
    · subst hkey
      have hget : t.cache.remembered.get? (canonicalText path) = some bytes := hget
      rw [hget]
      rfl
    · rw [if_neg hkey, Option.or_none]
  | none =>
    cases hread : t.files.read (canonicalText path) with
    | error fault =>
      rw [read_of_refused hget hread]
      simp [Except.toOption]
    | ok bytes =>
      rw [FileSystem.read_cache_of_get?_eq_none hread hget]
      dsimp only
      rw [get?_remember]
      by_cases hkey : canonicalText path = key
      · subst hkey
        have hget : t.cache.remembered.get? (canonicalText path) = none := hget
        rw [hget, if_pos rfl, if_pos rfl]
        rfl
      · rw [if_neg hkey, if_neg (Ne.symm hkey), Option.or_none]

theorem get?_cacheAfter_write (hcall : t.call = .write path bytes) (key : String) :
    t.cacheAfter.remembered.get? key = (t.written? key).or (t.cache.remembered.get? key) := by
  rw [cacheAfter, hcall, Call.perform, written?, hcall]
  dsimp only
  cases hwrite : t.files.write (canonicalText path) bytes with
  | error fault =>
    rw [write_of_refused t.cache hwrite]
    simp [Except.isOk, Except.toBool]
  | ok files =>
    rw [write_of_write t.cache hwrite]
    dsimp only
    rw [get?_remember]
    by_cases hkey : canonicalText path = key
    · simp [hkey, Except.isOk, Except.toBool]
    · simp [hkey, Ne.symm hkey]

/-- **What a call does to what is remembered of a path.** -/
theorem get?_cacheAfter (t : Turn) (key : String) :
    t.cacheAfter.remembered.get? key =
      if t.forgets key then none
      else (t.written? key).or ((t.cache.remembered.get? key).or (t.answered? key)) := by
  -- Each call is in one of the three parts of the equation, and the other two are void.
  cases hcall : t.call with
  | read path =>
    have hforgets : t.forgets key = false := by rw [forgets, hcall]
    have hwritten : t.written? key = none := by rw [written?, hcall]
    rw [get?_cacheAfter_read hcall, hforgets, hwritten]
    rfl
  | write path bytes =>
    have hforgets : t.forgets key = false := by rw [forgets, hcall]
    have hanswered : t.answered? key = none := by rw [answered?, hcall]
    rw [get?_cacheAfter_write hcall, hforgets, hanswered, Option.or_none]
    rfl
  | forget path =>
    have hwritten : t.written? key = none := by rw [written?, hcall]
    have hanswered : t.answered? key = none := by rw [answered?, hcall]
    rw [cacheAfter, hcall, Call.perform, get?_forget, hwritten, hanswered, forgets, hcall]
    by_cases hkey : canonicalText path = key
    · simp [hkey]
    · simp [hkey, Ne.symm hkey]
  | contains path | remembers path =>
    have hforgets : t.forgets key = false := by rw [forgets, hcall]
    have hwritten : t.written? key = none := by rw [written?, hcall]
    have hanswered : t.answered? key = none := by rw [answered?, hcall]
    rw [cacheAfter, hcall, Call.perform, hforgets, hwritten, hanswered, Option.or_none]
    rfl

/-- A call about one path does nothing to what is remembered of another one. -/
theorem get?_cacheAfter_of_ne (h : canonicalText t.call.path ≠ key) :
    t.cacheAfter.remembered.get? key = t.cache.remembered.get? key := by
  have hforgets : t.forgets key = false := by
    rw [forgets]
    cases hcall : t.call <;> simp_all [Call.path]
  have hwritten : t.written? key = none := by
    rw [written?]
    cases hcall : t.call <;> simp_all [Call.path]
  have hanswered : t.answered? key = none := by
    rw [answered?]
    cases hcall : t.call <;> simp_all [Call.path]
  rw [get?_cacheAfter, hforgets, hwritten, hanswered, Option.or_none]
  rfl

end Turn

/-- **A cache remembers its snapshots and nothing else.** -/
theorem History.get?_eq_snapshot (h : History turns cache) (key : String) :
    cache.remembered.get? key = snapshot key turns := by
  induction h with
  | start => rfl
  | turn earlier resumed ih => rw [Turn.get?_cacheAfter, snapshot_concat, resumed, ih]

/-- There is a snapshot of a path once it was written to or read, until it is forgotten. -/
theorem isSome_snapshot_iff : (snapshot key turns).isSome = true ↔
    ∃ t ∈ sinceForgotten key turns,
      (t.written? key).isSome = true ∨ (t.answered? key).isSome = true := by
  rw [snapshot, Option.isSome_or, Bool.or_eq_true, List.isSome_findSome?, List.isSome_findSome?,
    List.any_reverse, List.any_eq_true, List.any_eq_true]
  simp only [and_or_left, exists_or]

/-! ### What calls are answered with -/

/-- What a cache does with the calls that come after turns. -/
structure KeepsSnapshots (turns : List Turn) (cache : ByteCache) : Prop where
  /-- The snapshot of a path is read without a look at the files. -/
  read_snapshot : ∀ path bytes, snapshot (canonicalText path) turns = some bytes →
    ∀ fs, cache.read fs path = .ok (bytes, cache)
  /-- A path without a snapshot is read from the files, under its canonical spelling. -/
  read_files : ∀ path, snapshot (canonicalText path) turns = none →
    ∀ fs, Prod.fst <$> cache.read fs path = fs.read (canonicalText path)
  /-- Bytes are written to the files, under the canonical spelling of the path. -/
  write_files : ∀ fs path bytes,
    Prod.fst <$> cache.write fs path bytes = fs.write (canonicalText path) bytes
  /-- A reading that fails leaves everything as it was. -/
  read_failed : ∀ fs path fault, cache.read fs path = .error fault →
    (Call.read path).perform (cache, fs) = (cache, fs)
  /-- A writing that fails leaves everything as it was. -/
  write_failed : ∀ fs path bytes fault, cache.write fs path bytes = .error fault →
    (Call.write path bytes).perform (cache, fs) = (cache, fs)
  /-- Something is remembered of a path that was written to or read since it was last forgotten. -/
  remembers_iff : ∀ path, cache.remembers path = true ↔
    ∃ t ∈ sinceForgotten (canonicalText path) turns,
      (t.written? (canonicalText path)).isSome = true ∨
        (t.answered? (canonicalText path)).isSome = true
  /-- A path is there when something is remembered of it or something is where it leads. -/
  contains_iff : ∀ fs path, cache.contains fs path = true ↔
    cache.remembers path = true ∨ ∃ node, fs.stat (canonicalText path) = .ok node
  /-- A call about one path does nothing to what is remembered of another one. -/
  others : ∀ (call : Call) fs path, canonicalText call.path ≠ canonicalText path →
    (call.perform (cache, fs)).1.get? path = cache.get? path

/-- **The snapshots are what is served.**  Whatever has become of the files between the calls that
have led to a cache: it reads a path as it was last written or else first read since it was last
forgotten, also when that was empty; all else it reads from the files. -/
theorem History.keepsSnapshots (h : History turns cache) : KeepsSnapshots turns cache where
  read_snapshot path bytes hsnapshot fs := by
    refine read_of_get?_eq_some ?_ fs
    rw [get?, h.get?_eq_snapshot, hsnapshot]
  read_files path hsnapshot fs := by
    refine fst_read_of_get?_eq_none ?_ fs
    rw [get?, h.get?_eq_snapshot, hsnapshot]
  write_files fs path bytes := by
    cases hwrite : fs.write (canonicalText path) bytes with
    | ok files => rw [write_of_write cache hwrite]; rfl
    | error fault => rw [write_of_refused cache hwrite]; rfl
  read_failed fs path fault hread := by rw [Call.perform, hread]
  write_failed fs path bytes fault hwrite := by rw [Call.perform, hwrite]
  remembers_iff path := by rw [remembers, get?, h.get?_eq_snapshot, isSome_snapshot_iff]
  contains_iff fs path := by
    rw [contains, Bool.or_eq_true, FileSystem.leadsSomewhere_iff]
  others call fs path hne := Turn.get?_cacheAfter_of_ne (t := ⟨call, cache, fs⟩) hne

/-- Files with one entry. -/
def filesAt (path : String) (node : Node) : FileSystem where
  tree := .putAll .empty [⟨path, node⟩]
  cwd := "/"
  executable := "/usr/bin/python3"

/-- An empty file is read. -/
def emptyRead : Turn where
  call := .read "/p/a"
  cache := .empty
  files := filesAt "/p/a" (.file .newFile [])

/-- The file has been filled, and another path is forgotten. -/
def otherForgotten : Turn where
  call := .forget "/p/b"
  cache := emptyRead.cacheAfter
  files := filesAt "/p/a" (.file .newFile [1])

/-- A directory has taken the place of the file, and nothing can be written to it. -/
def writeRefused : Turn where
  call := .write "/p/./a" [2]
  cache := otherForgotten.cacheAfter
  files := filesAt "/p/a" (.directory .newDirectory)

/-- The file is still read as empty, by whichever spelling and whatever has become of it. -/
theorem keepsSnapshots_stale :
    History ([] ++ [emptyRead] ++ [otherForgotten] ++ [writeRefused]) writeRefused.cacheAfter ∧
      (∀ fs, writeRefused.cacheAfter.read fs "/p/q/../a" = .ok ([], writeRefused.cacheAfter)) ∧
      ∀ fs, Prod.fst <$> writeRefused.cacheAfter.read fs "/p//b" = fs.read "/p/b" := by
  have h : History ([] ++ [emptyRead] ++ [otherForgotten] ++ [writeRefused])
      writeRefused.cacheAfter := .turn (.turn (.turn .start rfl) rfl) rfl
  have hkeeps := h.keepsSnapshots
  refine ⟨h, hkeeps.read_snapshot "/p/q/../a" [] (by decide +kernel), ?_⟩
  have hb : canonicalText "/p//b" = "/p/b" := by decide +kernel
  rw [← hb]
  exact hkeeps.read_files "/p//b" (by decide +kernel)

end ConvertOnce.ByteCache
