import ConvertOnce.Proofs.BuildInputs.Stream

/-!
# A single change of the inputs

The inputs of a conversion come from four sources: the lock file, which is selected among several
and counts with its path, the converter's settings, the compiler's settings, and the place of the
latter.  When the inputs of one project change in a single source, another stream is hashed
(`InputSources.stream_ne_of_existsUnique`).

For three of the sources this is the cancellation of what stands before and after them.  The lock
file takes up two places in the stream, its contents and its path, which can change together.  What
keeps these apart is the end of the path: each name of a lock file ends in a byte of its own
(`lockFileNames_getLast?`).
-/

namespace ConvertOnce

/-! ### Contents and path of a lock file -/

/-- Each name of a lock file ends in a byte of its own. -/
theorem lockFileNames_getLast? :
    ∀ a ∈ lockFileNames, ∀ b ∈ lockFileNames,
      (Utf8.encode a).getLast? = (Utf8.encode b).getLast? → a = b := by
  decide +kernel

theorem encode_ne_nil_of_mem_lockFileNames {name : String} (h : name ∈ lockFileNames) :
    Utf8.encode name ≠ [] := by
  have hlength : 2 ≤ (Utf8.encode name).length := lockFileNames_take_two.1 name h
  apply List.ne_nil_of_length_pos
  omega

/-- The path of a lock file ends as the name of the file does. -/
theorem getLast?_append_encode_text {projectRoot : Path} {name front : String} (bytes : Bytes)
    (hname : name ∈ lockFileNames) (hfront : (projectRoot / name).text = front ++ name) :
    (bytes ++ Utf8.encode (projectRoot / name).text).getLast? = (Utf8.encode name).getLast? := by
  rw [hfront, Utf8.encode_append, ← List.append_assoc]
  exact List.getLast?_append_of_ne_nil _ (encode_ne_nil_of_mem_lockFileNames hname)

/-- **The contents of a lock file followed by its path tell both**, whatever the contents. -/
theorem LockFile.eq_of_append_eq {projectRoot : Path} {a b : LockFile}
    (ha : IsLockPath projectRoot a.path) (hb : IsLockPath projectRoot b.path)
    (h : a.bytes ++ Utf8.encode a.path.text = b.bytes ++ Utf8.encode b.path.text) : a = b := by
  obtain ⟨aPath, aBytes⟩ := a
  obtain ⟨bPath, bBytes⟩ := b
  obtain ⟨aName, haName, rfl⟩ := ha
  obtain ⟨bName, hbName, rfl⟩ := hb
  obtain ⟨front, hfront⟩ := projectRoot.text_div_of_isPart
  -- The last byte tells the names apart, and then what is before the path can be compared.
  have hlast := congrArg List.getLast? h
  dsimp only at hlast
  rw [getLast?_append_encode_text _ haName (hfront _ (isPart_of_mem_lockFileNames haName)),
    getLast?_append_encode_text _ hbName (hfront _ (isPart_of_mem_lockFileNames hbName))] at hlast
  have hname : aName = bName := lockFileNames_getLast? aName haName bName hbName hlast
  subst hname
  have hbytes : aBytes = bBytes := List.append_cancel_right h
  rw [hbytes]

/-! ### The sources of the inputs -/

namespace BuildInputs

/-- Where a part of the inputs comes from. -/
inductive Source where
  /-- The selected lock file, its contents and which one it is. -/
  | lock
  /-- The converter's settings. -/
  | toolConfig
  /-- The compiler's settings. -/
  | tsconfig
  /-- The place of the compiler's settings as seen from the project. -/
  | tsconfigPath

/-- The inputs are the same as far as they come from a source. -/
def SameFrom (a b : BuildInputs) : Source → Prop
  | .lock => a.lock = b.lock
  | .toolConfig => a.toolConfig = b.toolConfig
  | .tsconfig => a.tsconfig = b.tsconfig
  | .tsconfigPath => a.tsconfigPath = b.tsconfigPath

variable {a b : BuildInputs} {projectRoot : Path}

/-- With one stream, what is the same from all other sources is the same from this one too. -/
theorem sameFrom_of_stream_eq (ha : IsLockPath projectRoot a.lock.path)
    (hb : IsLockPath projectRoot b.lock.path) (h : a.stream = b.stream) (source : Source)
    (hothers : ∀ other, other ≠ source → a.SameFrom b other) : a.SameFrom b source := by
  unfold stream at h
  -- What the other sources have contributed is cancelled on both sides.
  cases source with
  | lock =>
    have htool : a.toolConfig = b.toolConfig := hothers .toolConfig (by simp)
    have hts : a.tsconfig = b.tsconfig := hothers .tsconfig (by simp)
    have hpath : a.tsconfigPath = b.tsconfigPath := hothers .tsconfigPath (by simp)
    rw [htool, hts, hpath] at h
    have hlock := List.append_cancel_right (List.append_cancel_right (List.append_cancel_right h))
    exact LockFile.eq_of_append_eq ha hb hlock
  | toolConfig =>
    have hlock : a.lock = b.lock := hothers .lock (by simp)
    have hts : a.tsconfig = b.tsconfig := hothers .tsconfig (by simp)
    have hpath : a.tsconfigPath = b.tsconfigPath := hothers .tsconfigPath (by simp)
    rw [hlock, hts, hpath] at h
    exact List.append_cancel_left (List.append_cancel_right (List.append_cancel_right h))
  | tsconfig =>
    have hlock : a.lock = b.lock := hothers .lock (by simp)
    have htool : a.toolConfig = b.toolConfig := hothers .toolConfig (by simp)
    have hpath : a.tsconfigPath = b.tsconfigPath := hothers .tsconfigPath (by simp)
    rw [hlock, htool, hpath] at h
    exact List.append_cancel_left (List.append_cancel_right h)
  | tsconfigPath =>
    have hlock : a.lock = b.lock := hothers .lock (by simp)
    have htool : a.toolConfig = b.toolConfig := hothers .toolConfig (by simp)
    have hts : a.tsconfig = b.tsconfig := hothers .tsconfig (by simp)
    rw [hlock, htool, hts] at h
    exact Path.text_injective (Utf8.encode_injective (List.append_cancel_left h))

end BuildInputs

/-! ### Two states of a project -/

namespace InputSources

/-- **A change in a single source changes the stream that is hashed.** -/
theorem stream_ne_of_existsUnique {sources sources' : InputSources} {fs fs' : FileSystem}
    {a b : BuildInputs} (hroot : sources.projectRoot = sources'.projectRoot)
    (ha : sources.read fs = .ok a) (hb : sources'.read fs' = .ok b)
    (hsingle : ∃! source, ¬ a.SameFrom b source) :
    sources.digest fs = .ok ⟨Sha256.digest a.stream⟩ ∧
      sources'.digest fs' = .ok ⟨Sha256.digest b.stream⟩ ∧ a.stream ≠ b.stream := by
  refine ⟨digest_eq_ok_iff.2 ⟨a, ha, rfl⟩, digest_eq_ok_iff.2 ⟨b, hb, rfl⟩, ?_⟩
  intro hstream
  obtain ⟨source, hchanged, honly⟩ := hsingle
  apply hchanged
  have hlock : IsLockPath sources.projectRoot b.lock.path := by
    rw [hroot]
    exact isLockPath_of_read hb
  -- With one stream the source that has changed alone would be the same after all.
  apply BuildInputs.sameFrom_of_stream_eq (isLockPath_of_read ha) hlock hstream
  intro other hother
  by_contra hnot
  exact hother (honly other hnot)

/-- Where the inputs of the project in `/p` are found. -/
def lockedSources : InputSources where
  projectRoot := .ofString "/p"
  tsconfig := .ofString "/p/tsconfig.json"

/-- The project with a single lock file. -/
def lockedFiles (name : String) (bytes : Bytes) : FileSystem where
  tree := .putAll .empty [⟨"/p/" ++ name, .file .newFile bytes⟩,
    ⟨"/p/tsconfig.json", .file .newFile [2]⟩]
  cwd := "/"
  executable := "/usr/bin/python3"

/-- What is read of it. -/
def lockedInputs (name : String) (bytes : Bytes) : BuildInputs where
  lock := ⟨Path.ofString "/p" / name, bytes⟩
  toolConfig := []
  tsconfig := [2]
  tsconfigPath := .ofString "tsconfig.json"

/-- The lock file of another package manager, with other contents, is a change from one source. -/
theorem existsUnique_not_sameFrom_lockedInputs :
    ∃! source, ¬ (lockedInputs "yarn.lock" [1]).SameFrom (lockedInputs "package-lock.json" [3, 4])
      source := by
  refine ⟨.lock, ?_, ?_⟩
  · intro hlock
    have hbytes : ([1] : Bytes) = [3, 4] := congrArg LockFile.bytes hlock
    simp at hbytes
  · intro other hother
    cases other with
    | lock => rfl
    | toolConfig => exact absurd rfl hother
    | tsconfig => exact absurd rfl hother
    | tsconfigPath => exact absurd rfl hother

/-- The two lock files give different streams. -/
theorem stream_ne_of_existsUnique_lockedFiles :
    lockedSources.read (lockedFiles "yarn.lock" [1]) = .ok (lockedInputs "yarn.lock" [1]) ∧
      lockedSources.read (lockedFiles "package-lock.json" [3, 4])
        = .ok (lockedInputs "package-lock.json" [3, 4]) ∧
      (lockedInputs "yarn.lock" [1]).stream ≠ (lockedInputs "package-lock.json" [3, 4]).stream := by
  have hbefore : lockedSources.read (lockedFiles "yarn.lock" [1])
      = .ok (lockedInputs "yarn.lock" [1]) := by
    decide +kernel
  have hafter : lockedSources.read (lockedFiles "package-lock.json" [3, 4])
      = .ok (lockedInputs "package-lock.json" [3, 4]) := by
    decide +kernel
  have hsingle := existsUnique_not_sameFrom_lockedInputs
  exact ⟨hbefore, hafter, (stream_ne_of_existsUnique rfl hbefore hafter hsingle).2.2⟩

end InputSources

end ConvertOnce
