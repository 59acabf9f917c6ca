import ConvertOnce.Proofs.FileSystem.Refusals
import ConvertOnce.Proofs.Path.Absolute
import ConvertOnce.Proofs.Path.Canonical
import ConvertOnce.Proofs.World

/-!
# The manifest beside a place

Where a finder fails, whatever the reason, the manifest in the directory above the importing place
is taken if there is one.  The way there is written with a `..` behind the absolute path of the
place and then made canonical; it leads to the lexical parent of the place, and from the root to the
root itself (`FileSystem.canonical_beside`).

`Finder.LookupAnswer` lists the ways in which a lookup of a manifest can end, by what the finder has
said, and a lookup ends in exactly one of them (`Finder.manifest?_fst_eq_iff`).
-/

namespace ConvertOnce

namespace FileSystem

variable {fs : FileSystem} {cwd context file : String}

/-! ### The way to the manifest -/

/-- The manifest in the directory above a place, which is read from a current directory.  The root
is above itself. -/
def besidePath (cwd context : String) : Path :=
  ((Path.ofString context).absolute cwd).parent / manifestName

/-- A place that is given by an absolute text, or is read from an absolute one, has an absolute
path. -/
theorem isAbsolute_place (h : IsAbsoluteText context ∨ IsAbsoluteText cwd) :
    ((Path.ofString context).absolute cwd).isAbsolute = true :=
  Path.isAbsolute_absolute (h.imp_left Path.isAbsolute_ofString)

/-- **The way up from a place and to the manifest leads into its lexical parent.** -/
theorem canonical_beside (h : IsAbsoluteText context ∨ IsAbsoluteText cwd) :
    ((Path.ofString context).absolute cwd / ".." / manifestName).canonical =
      besidePath cwd context := by
  have hcanonical := Path.isCanonical_absolute (Path.ofString context) cwd
  exact Path.canonical_div_up_div hcanonical
    (Path.push_up_of_isAbsolute hcanonical (isAbsolute_place h)) isPart_manifestName (by decide)

theorem isAbsolute_besidePath (h : IsAbsoluteText context ∨ IsAbsoluteText cwd) :
    (besidePath cwd context).isAbsolute = true :=
  Path.isAbsolute_div (Path.isAbsolute_parent (isAbsolute_place h)) manifestName

theorem isCanonical_besidePath (h : IsAbsoluteText context ∨ IsAbsoluteText cwd) :
    (besidePath cwd context).IsCanonical := by
  rw [← canonical_beside h]
  exact Path.isCanonical_canonical _

/-- The text of the manifest beside a place is its own canonical spelling. -/
theorem canonicalText_besidePath (h : IsAbsoluteText context ∨ IsAbsoluteText cwd) :
    canonicalText (besidePath cwd context).text = (besidePath cwd context).text :=
  isCanonicalText_iff.1 ⟨_, isCanonical_besidePath h, rfl⟩

/-! ### Whether there is one -/

theorem adjacentManifest?_eq (h : IsAbsoluteText context ∨ IsAbsoluteText fs.cwd) :
    fs.adjacentManifest? context =
      if fs.leadsSomewhere (besidePath fs.cwd context).text then
        some (besidePath fs.cwd context).text
      else none := by
  rw [adjacentManifest?, canonical_beside h]

/-- The manifest beside a place is taken if there is something of that name. -/
theorem adjacentManifest?_of_stat {node : Node}
    (h : IsAbsoluteText context ∨ IsAbsoluteText fs.cwd)
    (hstat : fs.stat (besidePath fs.cwd context).text = .ok node) :
    fs.adjacentManifest? context = some (besidePath fs.cwd context).text := by
  rw [adjacentManifest?_eq h, if_pos (leadsSomewhere_iff.2 ⟨node, hstat⟩)]

theorem adjacentManifest?_of_refused {fault : Fault}
    (h : IsAbsoluteText context ∨ IsAbsoluteText fs.cwd)
    (hstat : fs.stat (besidePath fs.cwd context).text = .error fault) :
    fs.adjacentManifest? context = none := by
  rw [adjacentManifest?_eq h, if_neg]
  rw [leadsSomewhere_iff, hstat]
  rintro ⟨node, hnode⟩
  cases hnode

end FileSystem

namespace Finder

variable {finder : Finder} {moduleName context : String} {w : World}
  {said : Except Fault (Option String)} {answer : Option String}

/-! ### The answer to a lookup -/

/-- The ways in which a lookup of a manifest can end, by what the finder has said. -/
inductive LookupAnswer (fs : FileSystem) (context : String) :
    Except Fault (Option String) → Option String → Prop
  /-- The finder has found something. -/
  | found {file : String} (hfile : file ≠ "") :
      LookupAnswer fs context (.ok (some file)) (some file)
  /-- The finder has found nothing. -/
  | nothing : LookupAnswer fs context (.ok none) none
  /-- An empty text is nothing. -/
  | blank : LookupAnswer fs context (.ok (some "")) none
  /-- The finder has failed, and there is a manifest beside the place. -/
  | beside {fault : Fault} {node : Node}
      (hstat : fs.stat (FileSystem.besidePath fs.cwd context).text = .ok node) :
      LookupAnswer fs context (.error fault) (some (FileSystem.besidePath fs.cwd context).text)
  /-- The finder has failed, and there is none. -/
  | missing {fault refusal : Fault}
      (hstat : fs.stat (FileSystem.besidePath fs.cwd context).text = .error refusal) :
      LookupAnswer fs context (.error fault) none

/-- Whatever the finder says, the lookup can end in one of the ways. -/
theorem exists_lookupAnswer (fs : FileSystem) (context : String)
    (said : Except Fault (Option String)) : ∃ answer, LookupAnswer fs context said answer := by
  cases said with
  | ok found =>
    cases found with
    | none => exact ⟨_, .nothing⟩
    | some file =>
      by_cases hfile : file = ""
      · subst hfile
        exact ⟨_, .blank⟩
      · exact ⟨_, .found hfile⟩
  | error fault =>
    cases hstat : fs.stat (FileSystem.besidePath fs.cwd context).text with
    | ok node => exact ⟨_, .beside hstat⟩
    | error refusal => exact ⟨_, .missing hstat⟩

theorem files_find (finder : Finder) (context request : String) (w : World) :
    (finder.find context request w).2.files = w.files := by
  rw [find_snd]
  cases finder <;> rfl

/-- A finder that says something is believed. -/
theorem manifest?_fst_of_ok {found : Option String}
    (h : (finder.find context (packageManifest moduleName) w).1 = .ok found) :
    (finder.manifest? moduleName context w).1 = found.filter (· ≠ "") := by
  have hfind : finder.find context (packageManifest moduleName) w
      = (.ok found, (finder.find context (packageManifest moduleName) w).2) := Prod.ext h rfl
  rw [manifest?, hfind]

/-- A finder that fails is done without. -/
theorem manifest?_fst_of_error {fault : Fault}
    (h : (finder.find context (packageManifest moduleName) w).1 = .error fault) :
    (finder.manifest? moduleName context w).1 = w.files.adjacentManifest? context := by
  have hfind : finder.find context (packageManifest moduleName) w
      = (.error fault, (finder.find context (packageManifest moduleName) w).2) := Prod.ext h rfl
  rw [manifest?, hfind]
  dsimp only
  rw [files_find]

/-- The way in which a lookup can end is the one in which it ends. -/
theorem LookupAnswer.manifest?_fst_eq
    (hplace : IsAbsoluteText context ∨ IsAbsoluteText w.files.cwd)
    (hsaid : (finder.find context (packageManifest moduleName) w).1 = said)
    (h : LookupAnswer w.files context said answer) :
    (finder.manifest? moduleName context w).1 = answer := by
  cases h with
  | found hfile => simp [manifest?_fst_of_ok hsaid, hfile]
  | nothing => simp [manifest?_fst_of_ok hsaid]
  | blank => simp [manifest?_fst_of_ok hsaid]
  | beside hstat =>
    rw [manifest?_fst_of_error hsaid, FileSystem.adjacentManifest?_of_stat hplace hstat]
  | missing hstat =>
    rw [manifest?_fst_of_error hsaid, FileSystem.adjacentManifest?_of_refused hplace hstat]

/-- **A lookup ends in the way that the finder's answer calls for**, and in no other. -/
theorem manifest?_fst_eq_iff (hplace : IsAbsoluteText context ∨ IsAbsoluteText w.files.cwd) :
    (finder.manifest? moduleName context w).1 = answer ↔
      LookupAnswer w.files context
        (finder.find context (packageManifest moduleName) w).1 answer := by
  constructor
  · rintro rfl
    obtain ⟨answer, hanswer⟩ := exists_lookupAnswer w.files context
      (finder.find context (packageManifest moduleName) w).1
    rw [hanswer.manifest?_fst_eq hplace rfl]
    exact hanswer
  · exact LookupAnswer.manifest?_fst_eq hplace rfl

/-- What is taken where the finder has failed is the manifest beside the place, and it is there. -/
theorem LookupAnswer.of_error {fault : Fault} {file : String} {fs : FileSystem}
    (h : LookupAnswer fs context (.error fault) (some file)) :
    file = (FileSystem.besidePath fs.cwd context).text ∧ ∃ node, fs.stat file = .ok node := by
  cases h with
  | beside hstat => exact ⟨rfl, _, hstat⟩

/-- What comes of looking up the manifest of a module's package. -/
structure LookedUp (finder : Finder) (moduleName context : String) (w : World) : Prop where
  /-- There is an answer, and it is the one that the finder's calls for. -/
  answer_iff : ∀ answer, (finder.manifest? moduleName context w).1 = answer ↔
    LookupAnswer w.files context (finder.find context (packageManifest moduleName) w).1 answer
  /-- Nothing happens but that the finder is asked, and it is asked once. -/
  world_eq : (finder.manifest? moduleName context w).2
    = (finder.find context (packageManifest moduleName) w).2
  /-- What is taken where the finder has failed is there, and it is named by an absolute path in its
  canonical spelling. -/
  beside : ∀ fault file, (finder.find context (packageManifest moduleName) w).1 = .error fault →
    (finder.manifest? moduleName context w).1 = some file →
    (∃ node, w.files.stat file = .ok node) ∧ IsAbsoluteText file ∧ canonicalText file = file

/-- **Every lookup of a manifest has an answer, whatever the finder says.**  A place that is not
given by an absolute text is read from the current directory. -/
theorem lookedUp (finder : Finder) (moduleName context : String) (w : World)
    (hplace : IsAbsoluteText context ∨ IsAbsoluteText w.files.cwd) :
    LookedUp finder moduleName context w where
  answer_iff _ := manifest?_fst_eq_iff hplace
  world_eq := manifest?_snd_eq_find_snd finder moduleName context w
  beside fault file hfind hfile := by
    have hanswer := (manifest?_fst_eq_iff hplace).1 hfile
    rw [hfind] at hanswer
    obtain ⟨rfl, hstat⟩ := hanswer.of_error
    exact ⟨hstat, Path.isAbsoluteText_text (FileSystem.isAbsolute_besidePath hplace),
      FileSystem.canonicalText_besidePath hplace⟩

/-- A project whose sources lie beside its manifest. -/
def besideFiles : FileSystem where
  tree := .putAll .empty [⟨"/p/package.json", .file .newFile []⟩]
  cwd := "/p/src"
  executable := "/usr/bin/python3"

/-- A host that fails for every request. -/
def failing : Finder := .host fun _ _ _ => .error (.host "no such module")

/-- From a place that is given in a roundabout way, a host that fails leads to the manifest of the
project, and the root is beside itself. -/
theorem lookedUp_failing :
    IsAbsoluteText besideFiles.cwd ∧
      (failing.manifest? "a/b" "../lib/.././/src/" (.ofFiles besideFiles)).1 =
        some "/p/package.json" ∧
      (failing.manifest? "a/b" "//" (.ofFiles besideFiles)).1 = none := by
  have hcwd : IsAbsoluteText (World.ofFiles besideFiles).files.cwd := by decide
  have hnear := lookedUp failing "a/b" "../lib/.././/src/" (.ofFiles besideFiles) (Or.inr hcwd)
  have hroot := lookedUp failing "a/b" "//" (.ofFiles besideFiles) (Or.inr hcwd)
  have hbeside : FileSystem.besidePath besideFiles.cwd "../lib/.././/src/"
      = .ofString "/p/package.json" := by
    decide +kernel
  have hstat : besideFiles.stat (FileSystem.besidePath besideFiles.cwd "../lib/.././/src/").text
      = .ok (.file .newFile []) := by
    decide +kernel
  have hmissing : besideFiles.stat (FileSystem.besidePath besideFiles.cwd "//").text
      = .error (.system .noEntry "//package.json") := by
    decide +kernel
  refine ⟨hcwd, ?_, (hroot.answer_iff none).2 (.missing hmissing)⟩
  have htext :
      (FileSystem.besidePath besideFiles.cwd "../lib/.././/src/").text = "/p/package.json" := by
    rw [hbeside]
    decide +kernel
  rw [← htext]
  exact (hnear.answer_iff _).2 (.beside hstat)

end Finder

end ConvertOnce
