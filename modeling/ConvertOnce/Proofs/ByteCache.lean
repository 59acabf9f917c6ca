import ConvertOnce.ByteCache
import ConvertOnce.Proofs.FileSystem.LinkFree

/-!
# A cache that agrees with the files

A cache agrees with a file system without links when everything it remembers is what the file of
that name contains (`ByteCache.Agrees`).  A call of the cache keeps this up, whether it succeeds or
not (`ByteCache.Agrees.perform`), and so does a run of calls, which starts from an empty cache
(`ByteCache.performAll_agrees`).
-/

namespace ConvertOnce

namespace FileSystem

variable {fs : FileSystem} {path : String} {bytes contents : Bytes} {permissions : Permissions}

/-- What can be read is a file. -/
theorem stat_of_read (h : fs.read path = .ok bytes) :
    ∃ permissions, fs.stat path = .ok (.file permissions bytes) := by
  obtain ⟨node, hstat, hnode⟩ := bind_eq_ok_iff.1 h
  cases node with
  | file permissions contents =>
    dsimp only at hnode
    split at hnode
    · obtain rfl := Except.ok.inj hnode
      exact ⟨permissions, hstat⟩
    · cases hnode
  | directory => cases hnode
  | link => cases hnode

/-- What is read of a file is what the file contains. -/
theorem eq_of_read (hstat : fs.stat path = .ok (.file permissions contents))
    (h : fs.read path = .ok bytes) : bytes = contents := by
  obtain ⟨permissions', hstat'⟩ := stat_of_read h
  cases hstat.symm.trans hstat'
  rfl

/-- A cache that remembers nothing of a path reads its canonical spelling. -/
theorem read_cache_of_get?_eq_none {cache : ByteCache} {path : String} {bytes : Bytes}
    (hread : fs.read (canonicalText path) = .ok bytes) (hnone : cache.get? path = none) :
    cache.read fs path = .ok (bytes, cache.remember path bytes) := by
  rw [ByteCache.read, hnone, hread]
  rfl

end FileSystem

namespace ByteCache

section Steps

variable {cache : ByteCache} {fs fs' : FileSystem} {path other : String} {bytes : Bytes}
  {fault : Fault}

/-! ### What a single step does -/

@[simp] theorem get?_remember (cache : ByteCache) (path : String) (bytes : Bytes) (key : String) :
    (cache.remember path bytes).remembered.get? key
      = if key = canonicalText path then some bytes else cache.remembered.get? key :=
  Table.get?_insert cache.remembered (canonicalText path) bytes key

@[simp] theorem get?_forget (cache : ByteCache) (path : String) (key : String) :
    (cache.forget path).remembered.get? key
      = if key = canonicalText path then none else cache.remembered.get? key :=
  Table.get?_erase cache.remembered (canonicalText path) key

/-- A path is forgotten under each of its spellings. -/
theorem get?_forget_of_same (h : canonicalText other = canonicalText path) :
    (cache.forget path).get? other = none := by
  rw [get?, get?_forget, if_pos h]

/-- What is remembered of a path is read without a look at the files. -/
theorem read_of_get?_eq_some (h : cache.get? path = some bytes) (fs : FileSystem) :
    cache.read fs path = .ok (bytes, cache) := by
  rw [read, h]

theorem read_of_refused (h : cache.get? path = none)
    (hread : fs.read (canonicalText path) = .error fault) : cache.read fs path = .error fault := by
  rw [read, h, hread]
  rfl

/-- A path of which nothing is remembered is read from the files. -/
theorem fst_read_of_get?_eq_none (h : cache.get? path = none) (fs : FileSystem) :
    Prod.fst <$> cache.read fs path = fs.read (canonicalText path) := by
  cases hread : fs.read (canonicalText path) with
  | ok bytes =>
    rw [FileSystem.read_cache_of_get?_eq_none hread h]
    rfl
  | error fault =>
    rw [read_of_refused h hread]
    rfl

theorem write_of_write (cache : ByteCache)
    (hwrite : fs.write (canonicalText path) bytes = .ok fs') :
    cache.write fs path bytes = .ok (fs', cache.remember path bytes) := by
  rw [write, hwrite]
  rfl

theorem write_of_refused (cache : ByteCache)
    (hwrite : fs.write (canonicalText path) bytes = .error fault) :
    cache.write fs path bytes = .error fault := by
  rw [write, hwrite]
  rfl

end Steps

/-! ### Runs of calls -/

/-- A call of the cache. -/
inductive Call where
  | read (path : String)
  | write (path : String) (bytes : Bytes)
  | contains (path : String)
  | forget (path : String)
  | remembers (path : String)

namespace Call

/-- The path that a call is given. -/
def path : Call → String
  | read path | write path _ | contains path | forget path | remembers path => path

/-- What a call leaves of the cache and the files.  A call that fails leaves both as they were. -/
def perform : Call → ByteCache × FileSystem → ByteCache × FileSystem
  | read path, (cache, fs) =>
    match cache.read fs path with
    | .ok (_, cache) => (cache, fs)
    | .error _ => (cache, fs)
  | write path bytes, (cache, fs) =>
    match cache.write fs path bytes with
    | .ok (fs, cache) => (cache, fs)
    | .error _ => (cache, fs)
  | forget path, (cache, fs) => (cache.forget path, fs)
  | contains _, s | remembers _, s => s

end Call

/-- What calls in turn leave of the cache and the files. -/
def performAll (calls : List Call) (s : ByteCache × FileSystem) : ByteCache × FileSystem :=
  calls.foldl (fun s call => call.perform s) s

/-- The key is the path of a file, from the root by its names, and the file contains the bytes. -/
structure IsContents (fs : FileSystem) (key : String) (bytes : Bytes) : Prop where
  isPlain : ∃ p : Path, p.IsPlain ∧ p.text = key
  stat : ∃ permissions, fs.stat key = .ok (.file permissions bytes)

/-- There are no links, and everything remembered is what a file contains. -/
structure Agrees (cache : ByteCache) (fs : FileSystem) : Prop where
  linkFree : fs.tree.LinkFree
  entries : ∀ key bytes, cache.remembered.get? key = some bytes → IsContents fs key bytes

variable {cache : ByteCache} {fs fs' : FileSystem} {path : String} {bytes : Bytes}
  {permissions : Permissions}

namespace Agrees

theorem empty (h : fs.tree.LinkFree) : Agrees .empty fs := by
  refine ⟨h, ?_⟩
  intro key bytes hkey
  cases hkey

/-- To remember the contents of a file it is enough that the other entries are right. -/
theorem of_others (hlinks : fs.tree.LinkFree) (hpath : IsRootedText path)
    (hstat : fs.stat (canonicalText path) = .ok (.file permissions bytes))
    (hothers : ∀ key ≠ canonicalText path, ∀ found, cache.remembered.get? key = some found →
      IsContents fs key found) : Agrees (cache.remember path bytes) fs := by
  refine ⟨hlinks, ?_⟩
  intro key found hfound
  rw [get?_remember] at hfound
  by_cases hkey : key = canonicalText path
  · -- The entry just made: the path is rooted, so its canonical form names the file.
    rw [if_pos hkey] at hfound
    obtain rfl : bytes = found := Option.some.inj hfound
    subst hkey
    exact ⟨⟨_, Path.isPlain_canonical hpath, rfl⟩, permissions, hstat⟩
  · rw [if_neg hkey] at hfound
    exact hothers key hkey found hfound

theorem remember (h : Agrees cache fs) (hpath : IsRootedText path)
    (hstat : fs.stat (canonicalText path) = .ok (.file permissions bytes)) :
    Agrees (cache.remember path bytes) fs :=
  of_others h.linkFree hpath hstat fun key _ found hfound => h.entries key found hfound

/-- What is forgotten cannot be wrong. -/
theorem forget (h : Agrees cache fs) (path : String) : Agrees (cache.forget path) fs := by
  refine ⟨h.linkFree, ?_⟩
  intro key found hfound
  rw [get?_forget] at hfound
  split at hfound
  · cases hfound
  · exact h.entries key found hfound

/-- A file that was written can be remembered: the other entries are those of other files. -/
theorem write (h : Agrees cache fs) (hpath : IsRootedText path)
    (hwrite : fs.write (canonicalText path) bytes = .ok fs') :
    Agrees (cache.remember path bytes) fs' := by
  have hp := Path.isPlain_canonical hpath
  have hlinks := FileSystem.linkFree_write h.linkFree hp hwrite
  obtain ⟨permissions, hstat⟩ := FileSystem.stat_write h.linkFree hp hwrite
  refine of_others hlinks hpath hstat ?_
  intro key hkey found hfound
  obtain ⟨⟨q, hq, rfl⟩, permissions, hold⟩ := h.entries key found hfound
  -- Without links another key is another file, which the write does not touch.
  have hne : q ≠ (Path.ofString path).canonical := by
    rintro rfl
    exact hkey rfl
  exact ⟨⟨q, hq, rfl⟩, permissions,
    FileSystem.stat_write_of_ne h.linkFree hp hq hne hwrite hold⟩

/-- **One call** keeps the cache in agreement with the files. -/
theorem perform {s : ByteCache × FileSystem} (h : Agrees s.1 s.2) (call : Call)
    (hpath : IsRootedText call.path) : Agrees (call.perform s).1 (call.perform s).2 := by
  obtain ⟨cache, fs⟩ := s
  -- Only a read, a write and a removal can change what is remembered, and each has a lemma of its
  -- own.
  cases call with
  | contains path => exact h
  | remembers path => exact h
  | forget path => exact h.forget path
  | read path =>
    rw [Call.perform, ByteCache.read]
    cases cache.get? path with
    | some bytes => exact h
    | none =>
      dsimp only
      cases hread : fs.read (canonicalText path) with
      | error fault => exact h
      | ok bytes =>
        obtain ⟨permissions, hstat⟩ := FileSystem.stat_of_read hread
        exact h.remember hpath hstat
  | write path bytes =>
    rw [Call.perform, ByteCache.write]
    cases hwrite : fs.write (canonicalText path) bytes with
    | error fault => exact h
    | ok fs' => exact h.write hpath hwrite

/-- What the cache reads is what the file contains, if it can be read at all. -/
theorem read_eq (h : Agrees cache fs) (hread : fs.read (canonicalText path) = .ok bytes) :
    ∃ cache', cache.read fs path = .ok (bytes, cache') := by
  rw [ByteCache.read]
  cases hget : cache.get? path with
  | some found =>
    obtain ⟨permissions, hstat⟩ := (h.entries _ _ hget).stat
    rw [FileSystem.eq_of_read hstat hread]
    exact ⟨cache, rfl⟩
  | none =>
    rw [hread]
    exact ⟨cache.remember path bytes, rfl⟩

/-- Something is there for the cache when something is there. -/
theorem contains_eq (h : Agrees cache fs) (path : String) :
    cache.contains fs path = fs.leadsSomewhere (canonicalText path) := by
  rw [ByteCache.contains, remembers]
  cases hget : cache.get? path with
  | some found =>
    obtain ⟨permissions, hstat⟩ := (h.entries _ _ hget).stat
    rw [FileSystem.leadsSomewhere, hstat]
    rfl
  | none => exact Bool.false_or _

end Agrees

/-- Calls in turn keep the cache in agreement with the files. -/
theorem Agrees.performAll {s : ByteCache × FileSystem} (h : Agrees s.1 s.2) {calls : List Call}
    (hcalls : ∀ call ∈ calls, IsRootedText call.path) :
    Agrees (performAll calls s).1 (performAll calls s).2 := by
  induction calls generalizing s with
  | nil => exact h
  | cons call calls ih =>
    have hfirst := h.perform call (hcalls call List.mem_cons_self)
    exact ih hfirst fun later hlater => hcalls later (List.mem_cons_of_mem call hlater)

/-- **The cache agrees with the files.**  After any calls, in a file system without links and from
an empty cache, everything remembered is what the file of that name contains; so what the cache
reads is what can be read, and something is there for the cache exactly when it is there. -/
theorem performAll_agrees (fs : FileSystem) (hlinks : fs.tree.LinkFree) (calls : List Call)
    (hcalls : ∀ call ∈ calls, IsRootedText call.path) :
    let cache := (performAll calls (.empty, fs)).1
    let files := (performAll calls (.empty, fs)).2
    (∀ key bytes, cache.remembered.get? key = some bytes →
      ∃ permissions, files.stat key = .ok (.file permissions bytes)) ∧
    (∀ path bytes, files.read (canonicalText path) = .ok bytes →
      ∃ cache', cache.read files path = .ok (bytes, cache')) ∧
    ∀ path, cache.contains files path = files.leadsSomewhere (canonicalText path) := by
  intro cache files
  have hstart : Agrees (ByteCache.empty, fs).1 (ByteCache.empty, fs).2 := .empty hlinks
  have hagrees : Agrees cache files := hstart.performAll hcalls
  refine ⟨?_, fun _ _ hread => hagrees.read_eq hread, hagrees.contains_eq⟩
  intro key bytes hkey
  exact (hagrees.entries key bytes hkey).stat

/-- A directory with one file. -/
def sampleFiles : FileSystem where
  tree := .putAll .empty [⟨"/p/a", .file .newFile [1]⟩]
  cwd := "/"
  executable := "/usr/bin/python3"

/-- One file is read and then written under another spelling of its path, and another one is written
and forgotten. -/
def sampleCalls : List Call :=
  [.read "/p/a", .write "/p/./a" [2], .write "/p/b" [3], .forget "/p/b"]

/-- The cache reads what was written, and finds the file that it has forgotten. -/
theorem performAll_agrees_sample :
    (∃ cache', (performAll sampleCalls (.empty, sampleFiles)).1.read
        (performAll sampleCalls (.empty, sampleFiles)).2 "/p/a" = .ok ([2], cache')) ∧
      (performAll sampleCalls (.empty, sampleFiles)).1.contains
        (performAll sampleCalls (.empty, sampleFiles)).2 "/p/b" = true := by
  have hlinks : sampleFiles.tree.LinkFree := FileTree.linkFree_of_entries (by decide +kernel)
  have hcalls : ∀ call ∈ sampleCalls, IsRootedText call.path := by
    simp only [sampleCalls, List.forall_mem_cons, Call.path]
    exact ⟨⟨_, rfl, by decide⟩, ⟨_, rfl, by decide⟩, ⟨_, rfl, by decide⟩, ⟨_, rfl, by decide⟩,
      by simp⟩
  obtain ⟨-, hread, hcontains⟩ := performAll_agrees sampleFiles hlinks sampleCalls hcalls
  refine ⟨hread "/p/a" [2] (by decide +kernel), ?_⟩
  rw [hcontains]
  decide +kernel

end ByteCache

end ConvertOnce
