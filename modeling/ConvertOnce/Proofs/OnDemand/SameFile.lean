import ConvertOnce.Proofs.ByteCache
import ConvertOnce.Proofs.FileSystem.Canonical
import ConvertOnce.Proofs.OnDemand.History

/-!
# Canonical spellings as names of files

Settled files and remembered contents are filed under canonical spellings, which are found without a
look at the file system.  Where there are no links nothing is mixed up by this
(`FileSystem.namesFiles_of_linkFree`): a spelling stands for one file, so an offer is passed over on
account of an offer of the same file only, and the contents that are read for the cache are those of
the file that was asked for.
-/

namespace ConvertOnce.FileSystem

/-- Canonical spellings stand for the files to which the paths lead. -/
structure NamesFiles (fs : FileSystem) : Prop where
  /-- A path that leads to a node has a canonical spelling that leads to the same node. -/
  resolves : ∀ follow path l node, fs.locate follow path = .ok (.node l node) →
    fs.locate follow (canonicalText path) = .ok (.node l node)
  /-- Paths with one canonical spelling, wherever they lead to nodes, lead to one node. -/
  unique : ∀ follow follow' path path' l l' node node',
    fs.locate follow path = .ok (.node l node) →
    fs.locate follow' path' = .ok (.node l' node') →
    canonicalText path = canonicalText path' → l = l' ∧ node = node'
  /-- A file that is passed over as settled was offered itself, under this or another path, and
  since then no change to it was reported. -/
  passedOver : ∀ (c : OnDemand) turns settled, c.History turns settled →
    ∀ follow file l node, fs.locate follow file = .ok (.node l node) →
    canonicalText file ∈ settled →
    ∃ before t after moduleName offered, turns = before ++ t :: after ∧
      (∀ u ∈ after, ¬ u.Unsettles (canonicalText file)) ∧
      t.call = .offer moduleName (some offered) ∧ t.outcome = .ok () ∧
      canonicalText offered = canonicalText file ∧
      ∀ follow' l' node', fs.locate follow' offered = .ok (.node l' node') → l' = l
  /-- What can be read is what a cache reads that remembers nothing of it. -/
  reads : ∀ (cache : ByteCache) path bytes, fs.read path = .ok bytes → cache.get? path = none →
    cache.read fs path = .ok (bytes, cache.remember path bytes)

variable {fs : FileSystem}

/-- **Where there are no links, canonical spellings stand for the files.** -/
theorem namesFiles_of_linkFree (hlinks : fs.tree.LinkFree) : fs.NamesFiles where
  resolves _ _ _ _ h := locate_canonicalText hlinks h
  unique _ _ _ _ _ _ _ _ h h' hcanonical := eq_of_canonicalText_eq hlinks h h' hcanonical
  passedOver c turns settled hhistory follow file l node hfile hmem := by
    obtain ⟨before, t, after, hturns, hsettles, hafter⟩ :=
      (hhistory.mem_settled_iff (canonicalText file)).1 hmem
    obtain ⟨-, moduleName, offered, hcall, -, hcanonical, -, houtcome⟩ := hsettles
    refine ⟨before, t, after, moduleName, offered, hturns, hafter, hcall, houtcome, hcanonical, ?_⟩
    intro follow' l' node' hoffered
    exact (eq_of_canonicalText_eq hlinks hoffered hfile hcanonical).1
  reads _ _ _ hread hnone := read_cache_of_get?_eq_none (read_canonicalText hlinks hread) hnone

/-- Files that are seen from a directory among them. -/
def namedFiles : FileSystem where
  tree := .putAll .empty [⟨"/p/a/b.js", .file .newFile [1]⟩, ⟨"/p/a/x", .directory .newDirectory⟩]
  cwd := "/p/a"
  executable := "/usr/bin/python3"

/-- A path with detours leads to the file that its canonical spelling leads to. -/
theorem namesFiles_of_linkFree_namedFiles :
    namedFiles.tree.LinkFree ∧ namedFiles.NamesFiles ∧
      canonicalText "x/..//../a/./b.js" = "../a/b.js" ∧
      namedFiles.locate true "x/..//../a/./b.js"
        = .ok (.node ["b.js", "a", "p"] (.file .newFile [1])) := by
  have hlinks : namedFiles.tree.LinkFree := FileTree.linkFree_of_entries (by decide +kernel)
  exact ⟨hlinks, namesFiles_of_linkFree hlinks, by decide +kernel, by decide +kernel⟩

end ConvertOnce.FileSystem
