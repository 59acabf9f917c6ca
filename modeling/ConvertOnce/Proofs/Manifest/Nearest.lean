import ConvertOnce.Proofs.Manifest
import ConvertOnce.Proofs.Path.Ancestors

/-!
# The nearest dependency directory wins

A search of the dependency directories goes outwards from its start, past every directory that bears
the name of a dependency directory itself and past every one whose dependency directory is certain
to have no file for the request.  The first directory that is left settles the search:
`FileSystem.SearchAnswer` lists the ways in which it can end, and a search ends in exactly one of
them (`FileSystem.findInDependencies_eq_iff`).

What lies further out is never looked at (`FileSystem.findInDependencies_congr`), so a nearer copy
of a package shadows one further out, and a refusal on the way is not passed over for the sake of a
later hit.
-/

namespace ConvertOnce

namespace FileSystem

variable {fs fs' : FileSystem} {name context request : String} {directory start : Path}
  {isDirectory : Bool} {answer : Except Fault String} {n : Nat}

/-! ### Directories that are passed over -/

/-- A search goes past a directory that is itself one of dependencies, and past one in whose
dependency directory there is certainly no file for the request. -/
def PassesOver (fs : FileSystem) (name request : String) (directory : Path) : Prop :=
  directory.name = name ∨ fs.isFileAt (directory / name / request) = .ok false

theorem candidateIn_of_name_ne (h : directory.name ≠ name) :
    fs.candidateIn name request directory = (do
      let isFile ← fs.isFileAt (directory / name / request)
      return if isFile then some (directory / name / request) else none) := by
  rw [candidateIn, if_neg h]

theorem candidateIn_congr (h : directory.name ≠ name)
    (hsame : fs'.isFileAt (directory / name / request) = fs.isFileAt (directory / name / request)) :
    fs'.candidateIn name request directory = fs.candidateIn name request directory := by
  rw [candidateIn_of_name_ne h, candidateIn_of_name_ne h, hsame]

/-- A directory yields nothing and no fault exactly when it is passed over. -/
theorem candidateIn_eq_ok_none_iff :
    fs.candidateIn name request directory = .ok none ↔ fs.PassesOver name request directory := by
  by_cases hname : directory.name = name
  · have hskip : fs.candidateIn name request directory = .ok none := by
      rw [candidateIn, if_pos hname]
      rfl
    simp [PassesOver, hname, hskip]
  · rw [candidateIn_of_name_ne hname, PassesOver]
    cases hisFile : fs.isFileAt (directory / name / request) with
    | error fault => simp [hname, bind, Except.bind]
    | ok isFile => cases isFile <;> simp [hname, ok_bind, pure_eq_ok]

/-- A directory that is not passed over has the file, or it is refused to say so. -/
theorem isFileAt_of_not_passesOver (h : ¬ fs.PassesOver name request directory) :
    fs.isFileAt (directory / name / request) = .ok true ∨
      ∃ fault, fs.isFileAt (directory / name / request) = .error fault := by
  cases hisFile : fs.isFileAt (directory / name / request) with
  | error fault => exact Or.inr ⟨fault, rfl⟩
  | ok isFile =>
    cases isFile with
    | false => exact absurd (Or.inr hisFile) h
    | true => exact Or.inl rfl

theorem name_ne_of_not_passesOver (h : ¬ fs.PassesOver name request directory) :
    directory.name ≠ name :=
  fun hname => h (Or.inl hname)

/-! ### The answer to a search -/

/-- A request that is not for a file of a package: it is local, or it is an absolute path. -/
def IsForeign (request : String) : Prop :=
  request.toList.head? = some '.' ∨ request.toList.head? = some '/'

/-- On the way outwards from the start, the directory with the first `n` parts is the first one that
is not passed over. -/
def IsDecisive (fs : FileSystem) (name request : String) (start : Path) (n : Nat) : Prop :=
  Path.IsNearest (fs.PassesOver name request) (start.absolute fs.cwd) n

/-- The ways in which a search can end. -/
inductive SearchAnswer (fs : FileSystem) (name context request : String) :
    Except Fault String → Prop
  /-- The request is for no file of a package. -/
  | foreign (hrequest : IsForeign request) :
      SearchAnswer fs name context request (.error (.notPackageRequest request))
  /-- It is refused to say what there is where the search is to begin. -/
  | noStart {fault : Fault} (hrequest : ¬ IsForeign request)
      (hstart : fs.isDirectoryAt (.ofString context) = .error fault) :
      SearchAnswer fs name context request (.error fault)
  /-- The nearest directory that is not passed over has the file. -/
  | found {isDirectory : Bool} {n : Nat} (hrequest : ¬ IsForeign request)
      (hstart : fs.isDirectoryAt (.ofString context) = .ok isDirectory)
      (hnearest : fs.IsDecisive name request (searchStart context isDirectory) n)
      (hisFile : fs.isFileAt
        (((searchStart context isDirectory).absolute fs.cwd).take n / name / request) = .ok true) :
      SearchAnswer fs name context request
        (.ok (((searchStart context isDirectory).absolute fs.cwd).take n / name / request).text)
  /-- It is refused to say whether that directory has the file. -/
  | refused {isDirectory : Bool} {n : Nat} {fault : Fault} (hrequest : ¬ IsForeign request)
      (hstart : fs.isDirectoryAt (.ofString context) = .ok isDirectory)
      (hnearest : fs.IsDecisive name request (searchStart context isDirectory) n)
      (hisFile : fs.isFileAt
        (((searchStart context isDirectory).absolute fs.cwd).take n / name / request)
          = .error fault) :
      SearchAnswer fs name context request (.error fault)
  /-- All directories are passed over. -/
  | missing {isDirectory : Bool} (hrequest : ¬ IsForeign request)
      (hstart : fs.isDirectoryAt (.ofString context) = .ok isDirectory)
      (hpassed : ∀ n, 0 < n → n ≤ ((searchStart context isDirectory).absolute fs.cwd).parts.length →
        fs.PassesOver name request (((searchStart context isDirectory).absolute fs.cwd).take n)) :
      SearchAnswer fs name context request (.error (.unresolved request context))

theorem isForeign_iff :
    (isLocalName request || request.toList.head? = some '/') = true ↔ IsForeign request := by
  simp [isLocalName, IsForeign]

theorem findInDependencies_of_foreign (h : IsForeign request) :
    fs.findInDependencies name context request = .error (.notPackageRequest request) := by
  rw [findInDependencies_eq, if_pos (isForeign_iff.2 h)]

/-- A search for a file of a package asks where to begin and then goes outwards. -/
theorem findInDependencies_of_not_foreign (h : ¬ IsForeign request) :
    fs.findInDependencies name context request = (do
      let isDirectory ← fs.isDirectoryAt (.ofString context)
      let found ← ((searchStart context isDirectory).ancestors fs.cwd).findSomeM?
        (fs.candidateIn name request)
      match found with
      | some file => return file.text
      | none => .error (.unresolved request context)) := by
  rw [findInDependencies_eq]
  exact if_neg (mt isForeign_iff.1 h)

/-- The directory that is not passed over settles the search. -/
theorem IsDecisive.findSomeM? (h : fs.IsDecisive name request start n) :
    (start.ancestors fs.cwd).findSomeM? (fs.candidateIn name request) =
      fs.candidateIn name request ((start.absolute fs.cwd).take n) := by
  apply Path.IsNearest.findSomeM?_ancestors
  exact h.congr fun m _ _ => candidateIn_eq_ok_none_iff

theorem findInDependencies_of_isDecisive (hrequest : ¬ IsForeign request)
    (hstart : fs.isDirectoryAt (.ofString context) = .ok isDirectory)
    (hdecisive : fs.IsDecisive name request (searchStart context isDirectory) n) :
    fs.findInDependencies name context request = (do
      let found ← fs.candidateIn name request
        (((searchStart context isDirectory).absolute fs.cwd).take n)
      match found with
      | some file => return file.text
      | none => .error (.unresolved request context)) := by
  rw [findInDependencies_of_not_foreign hrequest, hstart, ok_bind, hdecisive.findSomeM?]

/-- Every search ends in one of the ways. -/
theorem exists_searchAnswer (fs : FileSystem) (name context request : String) :
    ∃ answer, fs.SearchAnswer name context request answer := by
  by_cases hrequest : IsForeign request
  · exact ⟨_, .foreign hrequest⟩
  cases hstart : fs.isDirectoryAt (.ofString context) with
  | error fault => exact ⟨_, .noStart hrequest hstart⟩
  | ok isDirectory =>
    rcases Path.exists_isNearest_or (fs.PassesOver name request)
      ((searchStart context isDirectory).absolute fs.cwd) with ⟨n, hnearest⟩ | hpassed
    · rcases isFileAt_of_not_passesOver hnearest.not_passed with hisFile | ⟨fault, hisFile⟩
      · exact ⟨_, .found hrequest hstart hnearest hisFile⟩
      · exact ⟨_, .refused hrequest hstart hnearest hisFile⟩
    · exact ⟨_, .missing hrequest hstart hpassed⟩

/-- The way in which a search can end is the one in which it ends. -/
theorem SearchAnswer.findInDependencies_eq (h : fs.SearchAnswer name context request answer) :
    fs.findInDependencies name context request = answer := by
  -- Either the search does not begin, or the decisive directory answers, or all have been passed
  -- over.
  cases h with
  | foreign hrequest => exact findInDependencies_of_foreign hrequest
  | noStart hrequest hstart =>
    rw [findInDependencies_of_not_foreign hrequest, hstart]
    rfl
  | found hrequest hstart hnearest hisFile =>
    have hname := name_ne_of_not_passesOver hnearest.not_passed
    rw [findInDependencies_of_isDecisive hrequest hstart hnearest, candidateIn_of_name_ne hname,
      hisFile]
    rfl
  | refused hrequest hstart hnearest hisFile =>
    have hname := name_ne_of_not_passesOver hnearest.not_passed
    rw [findInDependencies_of_isDecisive hrequest hstart hnearest, candidateIn_of_name_ne hname,
      hisFile]
    rfl
  | @missing isDirectory hrequest hstart hpassed =>
    have hnone : ((searchStart context isDirectory).ancestors fs.cwd).findSomeM?
        (fs.candidateIn name request) = .ok none := by
      rw [Path.findSomeM?_ancestors_eq_none_iff]
      intro n hpos hle
      exact candidateIn_eq_ok_none_iff.2 (hpassed n hpos hle)
    rw [findInDependencies_of_not_foreign hrequest, hstart, ok_bind, hnone]
    rfl

/-- **A search ends in the way that the nearest directory which is not passed over calls for**, and
in no other. -/
theorem findInDependencies_eq_iff :
    fs.findInDependencies name context request = answer ↔
      fs.SearchAnswer name context request answer := by
  constructor
  · rintro rfl
    obtain ⟨answer, hanswer⟩ := exists_searchAnswer fs name context request
    rw [hanswer.findInDependencies_eq]
    exact hanswer
  · exact SearchAnswer.findInDependencies_eq

/-- What a search has found is in the dependency directory of the decisive directory. -/
theorem SearchAnswer.of_ok {file : String} (h : fs.SearchAnswer name context request (.ok file)) :
    ¬ IsForeign request ∧ ∃ isDirectory n, fs.isDirectoryAt (.ofString context) = .ok isDirectory ∧
      fs.IsDecisive name request (searchStart context isDirectory) n ∧
      file =
        (((searchStart context isDirectory).absolute fs.cwd).take n / name / request).text := by
  cases h with
  | found hrequest hstart hnearest => exact ⟨hrequest, _, _, hstart, hnearest, rfl⟩

theorem SearchAnswer.ne_empty {file : String}
    (h : fs.SearchAnswer name context request (.ok file)) :
    file ≠ "" := by
  obtain ⟨-, isDirectory, n, -, -, rfl⟩ := h.of_ok
  exact Path.text_ne_empty _

/-! ### What a search depends on -/

/-- Two file systems let a search begin at the same place, and say the same about all directories
from there to the one with the first `n` parts. -/
structure AgreesUpTo (fs fs' : FileSystem) (name request : String) (start : Path) (n : Nat) :
    Prop where
  /-- The search begins at the same place. -/
  absolute_eq : start.absolute fs'.cwd = start.absolute fs.cwd
  /-- Directories that are not dependency directories themselves are told apart in the same way. -/
  isFileAt_eq : ∀ m, n ≤ m → m ≤ (start.absolute fs.cwd).parts.length →
    ((start.absolute fs.cwd).take m).name ≠ name →
      fs'.isFileAt ((start.absolute fs.cwd).take m / name / request)
        = fs.isFileAt ((start.absolute fs.cwd).take m / name / request)

/-- Where the same is said of all directories up to the decisive one, it is decisive too. -/
theorem IsDecisive.of_agreesUpTo (h : fs.IsDecisive name request start n)
    (hagree : AgreesUpTo fs fs' name request start n) : fs'.IsDecisive name request start n := by
  rw [IsDecisive, hagree.absolute_eq]
  refine h.congr ?_
  intro m hm hle
  rw [PassesOver, PassesOver]
  by_cases hname : ((start.absolute fs.cwd).take m).name = name
  · simp [hname]
  · rw [hagree.isFileAt_eq m hm hle hname]

/-- **What lies further out than the decisive directory has no influence on the answer.** -/
theorem findInDependencies_congr
    (hstart : fs.isDirectoryAt (.ofString context) = .ok isDirectory)
    (hstart' : fs'.isDirectoryAt (.ofString context) = .ok isDirectory)
    (hdecisive : fs.IsDecisive name request (searchStart context isDirectory) n)
    (hagree : AgreesUpTo fs fs' name request (searchStart context isDirectory) n) :
    fs'.findInDependencies name context request = fs.findInDependencies name context request := by
  by_cases hrequest : IsForeign request
  · rw [findInDependencies_of_foreign hrequest, findInDependencies_of_foreign hrequest]
  have hname := name_ne_of_not_passesOver hdecisive.not_passed
  have hisFile := hagree.isFileAt_eq n (Nat.le_refl n) hdecisive.le hname
  have hcandidate := candidateIn_congr hname hisFile
  rw [findInDependencies_of_isDecisive hrequest hstart hdecisive,
    findInDependencies_of_isDecisive hrequest hstart' (hdecisive.of_agreesUpTo hagree),
    hagree.absolute_eq, hcandidate]

end FileSystem

/-- A search of the dependency directories of a name is settled by the nearest directory that is not
passed over. -/
structure NearestWins (name : String) : Prop where
  /-- The search ends as that directory has it, if there is one. -/
  answer_iff : ∀ (fs : FileSystem) context request answer,
    fs.findInDependencies name context request = answer ↔
      fs.SearchAnswer name context request answer
  /-- The finder of the name answers with what the search has found, which is never nothing and
  never the empty text, and with the fault of the search where it fails.  It leaves the world as it
  is. -/
  find_eq : ∀ context request (w : World),
    (∃ file, (Finder.search name).find context request w = (.ok (some file), w) ∧ file ≠ "" ∧
        w.files.SearchAnswer name context request (.ok file)) ∨
      ∃ fault, (Finder.search name).find context request w = (.error fault, w) ∧
        w.files.SearchAnswer name context request (.error fault)
  /-- Nothing further out than that directory counts. -/
  independent : ∀ (fs fs' : FileSystem) context request isDirectory n,
    fs.isDirectoryAt (.ofString context) = .ok isDirectory →
    fs'.isDirectoryAt (.ofString context) = .ok isDirectory →
    fs.IsDecisive name request (FileSystem.searchStart context isDirectory) n →
    FileSystem.AgreesUpTo fs fs' name request (FileSystem.searchStart context isDirectory) n →
    fs'.findInDependencies name context request = fs.findInDependencies name context request

/-- The finder of a name does the search. -/
theorem Finder.find_search (name context request : String) (w : World) :
    (search name).find context request w =
      (some <$> w.files.findInDependencies name context request, w) := by
  rw [find, Action.query]

/-- **The nearest dependency directory wins.** -/
theorem nearestWins (name : String) : NearestWins name where
  answer_iff _ _ _ _ := FileSystem.findInDependencies_eq_iff
  find_eq context request w := by
    rw [Finder.find_search]
    cases hfind : w.files.findInDependencies name context request with
    | ok file =>
      have hanswer := FileSystem.findInDependencies_eq_iff.1 hfind
      exact Or.inl ⟨file, rfl, hanswer.ne_empty, hanswer⟩
    | error fault => exact Or.inr ⟨fault, rfl, FileSystem.findInDependencies_eq_iff.1 hfind⟩
  independent _ _ _ _ _ _ hstart hstart' hdecisive hagree :=
    FileSystem.findInDependencies_congr hstart hstart' hdecisive hagree

end ConvertOnce
