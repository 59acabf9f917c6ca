import ConvertOnce.Proofs.OnDemand.Outcome
import ConvertOnce.Proofs.Path.NormalForm

/-!
# Histories of offers

A `History` is what a host lives through with one `OnDemand`: offers of modules and reports that a
file has changed, in any order and number, each with its outcome.  Between two of them only the
settled files stay what they were; the world, the cache and the report may become anything.

One turn changes the membership of a key by `mem_settled_turn`; from this the settled files are
read off the history alone (`History.mem_settled_iff`), and an offer of a settled file is answered
without a look at the world (`offer_of_settled`).
-/

namespace ConvertOnce.OnDemand

/-! ### Turns and histories -/

/-- What a host asks of what converts packages on demand. -/
inductive Call where
  /-- Convert the package of a module that was resolved to a file. -/
  | offer (moduleName : String) (file : Option String)
  /-- A file has changed. -/
  | changed (file : String)

/-- Carries out a call. -/
def perform (c : OnDemand) : Call → Action BuildState Unit
  | .offer moduleName file => c.offer moduleName file
  | .changed file => fun s => (.ok (), s.unsettle file)

/-- A call with what came of it. -/
structure Turn where
  /-- The call. -/
  call : Call
  /-- The state in which it was made. -/
  before : BuildState
  /-- How it ended. -/
  outcome : Except Fault Unit
  /-- The state that it reached. -/
  after : BuildState

/-- The turns that a host can live through, with the files that are settled afterwards.  Nothing is
settled at the start. -/
inductive History (c : OnDemand) : List Turn → List String → Prop
  | start : History c [] []
  | turn {turns : List Turn} {settled : List String} {t : Turn} (earlier : History c turns settled)
      (resumed : t.before.settled = settled)
      (performed : c.perform t.call t.before = (t.outcome, t.after)) :
      History c (turns ++ [t]) t.after.settled

namespace Turn

/-- The turn is an offer of the file with the given canonical path. -/
def IsOfferOf (t : Turn) (key : String) : Prop :=
  ∃ moduleName file, t.call = .offer moduleName (some file) ∧ canonicalText file = key

/-- The turn reports a change of the file with the given canonical path. -/
def Unsettles (t : Turn) (key : String) : Prop :=
  ∃ file, t.call = .changed file ∧ canonicalText file = key

/-- The turn is an offer that has to be looked at, of the file with the given canonical path, and
it ended well. -/
def Settles (c : OnDemand) (t : Turn) (key : String) : Prop :=
  c.dependencyRoot.isSome ∧ ∃ moduleName file, t.call = .offer moduleName (some file) ∧
    file ≠ "" ∧ canonicalText file = key ∧ isLocalName moduleName = false ∧ t.outcome = .ok ()

/-- The converter was called during the turn. -/
def Converts (t : Turn) : Prop :=
  ∃ request, .conversion request ∈ t.after.world.events.drop t.before.world.events.length

/-- The turn is an offer of the file with the given canonical path that called the converter and
ended well. -/
structure Converted (t : Turn) (key : String) : Prop where
  /-- The file was offered. -/
  isOfferOf : t.IsOfferOf key
  /-- The converter was called. -/
  converts : t.Converts
  /-- The turn ended well. -/
  outcome_eq : t.outcome = .ok ()

end Turn

/-! ### One turn -/

variable {c : OnDemand} {t u : Turn} {turns : List Turn} {settled : List String} {key : String}

/-- An offer that concerns and ended well settles its file. -/
theorem settles_of_concerns {root : Path} {moduleName : String} {file : Option String}
    {name : String} (hcall : t.call = .offer moduleName file)
    (h : c.Concerns root moduleName file name) (hok : t.outcome = .ok ()) :
    t.Settles c (canonicalText name) := by
  refine ⟨by simp [h.root_eq], moduleName, name, ?_, h.ne_empty, rfl, h.not_local, hok⟩
  rw [hcall, h.file_eq]

/-- An offer that settles a file concerns it. -/
theorem concerns_of_settles {moduleName : String} {file : Option String}
    (hcall : t.call = .offer moduleName file) (h : t.Settles c key) :
    ∃ root name, c.Concerns root moduleName file name ∧ canonicalText name = key ∧
      t.outcome = .ok () := by
  obtain ⟨hroot, moduleName', name, hcall', hne, hkey, hlocal, hok⟩ := h
  obtain ⟨root, hroot⟩ := Option.isSome_iff_exists.1 hroot
  rw [hcall] at hcall'
  obtain ⟨rfl, rfl⟩ : moduleName = moduleName' ∧ file = some name := by simpa using hcall'
  exact ⟨root, name, ⟨hroot, rfl, hne, hlocal⟩, hkey, hok⟩

/-- The file that an offer concerns is settled by no other name. -/
theorem Concerns.name_unique {root root' : Path} {moduleName : String} {file : Option String}
    {name name' : String} (h : c.Concerns root moduleName file name)
    (h' : c.Concerns root' moduleName file name') : name = name' :=
  Option.some.inj (h.file_eq.symm.trans h'.file_eq)

/-- What an offer that ended in a given way does to the settled files. -/
theorem Offered.mem_settled {moduleName : String} {file : Option String}
    {outcome : Except Fault Unit} {s s' : BuildState}
    (h : Offered c moduleName file s outcome s') (key : String) :
    key ∈ s'.settled ↔
      (∃ root name, c.Concerns root moduleName file name ∧ canonicalText name = key ∧
        outcome = .ok ()) ∨ key ∈ s.settled := by
  -- An offer settles its own file or none, and it does so when it ends well after it was found
  -- wanting.
  cases h with
  | unneeded idle =>
    refine ⟨Or.inr, fun h => h.elim (fun ⟨root, name, hc, _⟩ => ?_) id⟩
    exact absurd hc (idle root name)
  | @known root name hc hs =>
    refine ⟨Or.inr, fun h => h.elim (fun ⟨root', name', hc', hkey, _⟩ => ?_) id⟩
    rw [← hkey, ← hc.name_unique hc']
    exact (BuildState.isSettled_iff s name).1 hs
  | @missed root name manifest world hc _ _ _ =>
    rw [BuildState.mem_settled_settle]
    refine or_congr_left ⟨fun h => ⟨root, name, hc, h.symm, rfl⟩, ?_⟩
    rintro ⟨root', name', hc', hkey, -⟩
    rw [← hkey, hc.name_unique hc']
  | refused => simp
  | @failed root name manifest world fault s' _ _ _ _ hfail =>
    obtain ⟨world, report, rfl, -⟩ := convert_spec hfail
    simp
  | @converted root name manifest world s' hc _ _ _ hdone =>
    obtain ⟨world, report, rfl, -⟩ := convert_spec hdone
    rw [BuildState.mem_settled_settle]
    refine or_congr_left ⟨fun h => ⟨root, name, hc, h.symm, rfl⟩, ?_⟩
    rintro ⟨root', name', hc', hkey, -⟩
    rw [← hkey, hc.name_unique hc']

/-- **What one turn does to one key**: it is settled afterwards when the turn settled it, or when
it was settled before and the turn did not report a change of it. -/
theorem mem_settled_turn (h : c.perform t.call t.before = (t.outcome, t.after)) (key : String) :
    key ∈ t.after.settled ↔ t.Settles c key ∨ key ∈ t.before.settled ∧ ¬t.Unsettles key := by
  -- An offer takes no file from the settled ones, and a change adds none.
  cases hcall : t.call with
  | offer moduleName file =>
    have hno : ¬t.Unsettles key := by
      rintro ⟨file', hcall', -⟩
      simp [hcall] at hcall'
    have hoffered := offered_offer c moduleName file t.before
    rw [hcall, perform] at h
    rw [h] at hoffered
    rw [hoffered.mem_settled key]
    simp only [hno, not_false_eq_true, and_true]
    refine or_congr_left ⟨?_, concerns_of_settles hcall⟩
    rintro ⟨root, name, hc, rfl, hok⟩
    exact settles_of_concerns hcall hc hok
  | changed file =>
    rw [hcall, perform] at h
    obtain ⟨-, hafter⟩ := Prod.mk.inj h
    have hno : ¬t.Settles c key := by
      rintro ⟨-, moduleName, file', hcall', -⟩
      simp [hcall] at hcall'
    rw [← hafter, BuildState.mem_settled_unsettle]
    simp only [hno, false_or]
    refine and_congr_right fun _ => not_congr ⟨fun hk => ⟨file, hcall, hk.symm⟩, ?_⟩
    rintro ⟨file', hcall', hk⟩
    rw [hcall] at hcall'
    rw [← hk, ← (Call.changed.inj hcall')]

/-- **An offer of a settled file is answered at once**, whatever the world and the finder. -/
theorem offer_of_settled (c : OnDemand) {moduleName file : String} {s : BuildState}
    (h : canonicalText file ∈ s.settled) : c.offer moduleName (some file) s = (.ok (), s) := by
  have hsettled : ∀ {root name}, c.Concerns root moduleName (some file) name →
      s.isSettled name = true := fun hc => by
    obtain rfl : file = _ := Option.some.inj hc.file_eq
    exact (BuildState.isSettled_iff s file).2 h
  have hoffered := offered_offer c moduleName (some file) s
  generalize c.offer moduleName (some file) s = answer at hoffered ⊢
  obtain ⟨outcome, s'⟩ := answer
  -- All other ways to end begin with a file that is not settled.
  cases hoffered with
  | unneeded => rfl
  | known => rfl
  | missed hc hs | refused hc hs | failed hc hs | converted hc hs =>
    rw [hsettled hc] at hs
    cases hs

/-- An offer that called the converter and ended well settles its file. -/
theorem Turn.Converted.settles (h : c.perform t.call t.before = (t.outcome, t.after))
    (hconv : t.Converted key) : t.Settles c key := by
  obtain ⟨moduleName, file, hcall, rfl⟩ := hconv.isOfferOf
  have hoffered := offered_offer c moduleName (some file) t.before
  rw [hcall, perform] at h
  rw [h, hconv.outcome_eq] at hoffered
  have hchanged : t.after ≠ t.before := by
    intro hsame
    obtain ⟨request, hmem⟩ := hconv.converts
    simp [hsame] at hmem
  have hsettles : ∀ {root name}, c.Concerns root moduleName (some file) name →
      t.Settles c (canonicalText file) := fun hc => by
    have hname : file = _ := Option.some.inj hc.file_eq
    rw [hname]
    exact settles_of_concerns hcall hc hconv.outcome_eq
  generalize hs : t.after = s' at hoffered hchanged
  -- The turn has called the converter, so the state is not the old one, and an offer that ends well
  -- otherwise settles its file.
  cases hoffered with
  | unneeded => exact absurd rfl hchanged
  | known => exact absurd rfl hchanged
  | missed hc => exact hsettles hc
  | converted hc => exact hsettles hc

/-! ### Many turns -/

/-- A history with a last turn goes back to a history without it. -/
theorem History.of_concat (h : History c (turns ++ [t]) settled) :
    History c turns t.before.settled ∧ c.perform t.call t.before = (t.outcome, t.after) ∧
      settled = t.after.settled := by
  generalize hl : turns ++ [t] = all at h
  cases h with
  | start => simp at hl
  | turn earlier resumed performed =>
    obtain ⟨rfl, ht⟩ := List.append_inj' hl rfl
    obtain rfl := List.singleton_inj.1 ht
    exact ⟨resumed ▸ earlier, performed, rfl⟩

/-- The history up to any of its turns, and that turn. -/
theorem History.upTo (before : List Turn) (t : Turn) (after : List Turn) :
    ∀ {settled}, History c (before ++ t :: after) settled →
      History c before t.before.settled ∧ c.perform t.call t.before = (t.outcome, t.after) := by
  induction after using List.reverseRecOn with
  | nil =>
    intro settled h
    obtain ⟨hbefore, hperformed, -⟩ := h.of_concat
    exact ⟨hbefore, hperformed⟩
  | append_singleton after last ih =>
    intro settled h
    rw [← List.cons_append, ← List.append_assoc] at h
    exact ih h.of_concat.1

/-- The last element with a property: it is the new one, or an earlier one that the new one lets
stand. -/
theorem exists_last_concat_iff {α : Type} {P Q : α → Prop} {xs : List α} {x : α} :
    (∃ before y after, xs ++ [x] = before ++ y :: after ∧ P y ∧ ∀ z ∈ after, Q z) ↔
      P x ∨ (∃ before y after, xs = before ++ y :: after ∧ P y ∧ ∀ z ∈ after, Q z) ∧ Q x := by
  constructor
  · rintro ⟨before, y, after, heq, hy, hafter⟩
    -- Nothing follows the new element itself; otherwise the new one is the last of those that
    -- follow.
    rcases List.eq_nil_or_concat' after with rfl | ⟨init, last, rfl⟩
    · obtain ⟨-, hx⟩ := List.append_inj' heq rfl
      rw [List.singleton_inj.1 hx]
      exact Or.inl hy
    · rw [← List.cons_append, ← List.append_assoc] at heq
      obtain ⟨hxs, hx⟩ := List.append_inj' heq rfl
      rw [List.singleton_inj.1 hx]
      exact Or.inr ⟨⟨before, y, init, hxs, hy, fun z hz => hafter z (by simp [hz])⟩,
        hafter last (by simp)⟩
  · rintro (hx | ⟨⟨before, y, after, rfl, hy, hafter⟩, hx⟩)
    · exact ⟨xs, x, [], rfl, hx, by simp⟩
    · refine ⟨before, y, after ++ [x], by simp, hy, fun z hz => ?_⟩
      rcases List.mem_append.1 hz with hz | hz
      · exact hafter z hz
      · rw [List.mem_singleton.1 hz]
        exact hx

/-- **The settled files are read off the history**: a key is settled exactly when some turn settled
it and no later one reported a change of it. -/
theorem History.mem_settled_iff (h : History c turns settled) (key : String) :
    key ∈ settled ↔ ∃ before t after, turns = before ++ t :: after ∧ t.Settles c key ∧
      ∀ u ∈ after, ¬u.Unsettles key := by
  induction h with
  | start => simp
  | @turn turns settled t earlier resumed performed ih =>
    rw [mem_settled_turn performed, exists_last_concat_iff, resumed, ih]

/-- Every settled file is known by its canonical path. -/
theorem History.isCanonicalText_of_mem (h : History c turns settled) (hkey : key ∈ settled) :
    IsCanonicalText key := by
  obtain ⟨-, t, -, -, ⟨-, -, file, -, -, rfl, -⟩, -⟩ := (h.mem_settled_iff key).1 hkey
  exact isCanonicalText_canonicalText file

/-- What is settled after a turn is still settled before a later one, when no turn between them
reported a change. -/
theorem History.mem_settled_of_between {before between after : List Turn}
    (h : History c (before ++ t :: between ++ u :: after) settled)
    (hbetween : ∀ v ∈ between, ¬v.Unsettles key) (hkey : key ∈ t.after.settled) :
    key ∈ u.before.settled := by
  have hu := (History.upTo _ u after h).1
  obtain ⟨ht, hperformed⟩ := History.upTo before t between hu
  have hturn := History.turn ht rfl hperformed
  obtain ⟨start, last, rest, heq, hsettles, hrest⟩ := (hturn.mem_settled_iff key).1 hkey
  refine (hu.mem_settled_iff key).2 ⟨start, last, rest ++ between, ?_, hsettles, fun v hv => ?_⟩
  · rw [List.append_cons, heq]
    simp
  · exact (List.mem_append.1 hv).elim (hrest v) (hbetween v)

/-- A converted file is settled. -/
theorem History.mem_settled_of_converted {before after : List Turn}
    (h : History c (before ++ t :: after) settled) (hconv : t.Converted key) :
    key ∈ t.after.settled := by
  have hperformed := (History.upTo before t after h).2
  exact (mem_settled_turn hperformed key).2 (Or.inl (hconv.settles hperformed))

/-! ### The account of a history -/

/-- What the settled files of a history account for. -/
structure Accounted (c : OnDemand) (turns : List Turn) (settled : List String) : Prop where
  /-- Every settled file is known by its canonical path. -/
  canonical : ∀ key ∈ settled, IsCanonicalText key
  /-- A file is settled exactly when, since the last report of a change to it, an offer of it that
  had to be looked at ended well. -/
  settled_iff : ∀ key, key ∈ settled ↔ ∃ before t after, turns = before ++ t :: after ∧
    t.Settles c key ∧ ∀ u ∈ after, ¬u.Unsettles key
  /-- From the conversion of a file on, or from any other turn after which it is settled, and until
  a change to it is reported, an offer of it does nothing at all and asks no finder. -/
  quiet : ∀ key before t between u after, turns = before ++ t :: between ++ u :: after →
    (∀ v ∈ between, ¬v.Unsettles key) → t.Converted key ∨ key ∈ t.after.settled →
    u.IsOfferOf key → u.outcome = .ok () ∧ u.after = u.before ∧
      ∀ finder, { c with finder := finder }.perform u.call u.before = (.ok (), u.before)
  /-- Between two reports of a change a file is converted at most once. -/
  converted_once : ∀ key before t between u after, turns = before ++ t :: between ++ u :: after →
    (∀ v ∈ between, ¬v.Unsettles key) → t.Converted key → ¬u.Converted key

/-- An offer of a file that is settled at the time does nothing, whoever finds manifests. -/
theorem quiet_of_mem_settled (h : c.perform u.call u.before = (u.outcome, u.after))
    (hkey : key ∈ u.before.settled) (hoffer : u.IsOfferOf key) :
    u.outcome = .ok () ∧ u.after = u.before ∧
      ∀ finder, { c with finder := finder }.perform u.call u.before = (.ok (), u.before) := by
  obtain ⟨moduleName, file, hcall, rfl⟩ := hoffer
  rw [hcall] at h ⊢
  obtain ⟨houtcome, hafter⟩ := Prod.mk.inj (h.symm.trans (offer_of_settled c hkey))
  exact ⟨houtcome, hafter, fun finder => offer_of_settled { c with finder := finder } hkey⟩

/-- **Every history accounts for its settled files.** -/
theorem History.accounted (h : History c turns settled) : Accounted c turns settled := by
  -- A file that is settled stays so until a change of it is reported, and is not converted
  -- meanwhile.
  have hquiet : ∀ key before t between u after, turns = before ++ t :: between ++ u :: after →
      (∀ v ∈ between, ¬v.Unsettles key) → t.Converted key ∨ key ∈ t.after.settled →
      u.IsOfferOf key → u.outcome = .ok () ∧ u.after = u.before ∧
        ∀ finder, { c with finder := finder }.perform u.call u.before = (.ok (), u.before) := by
    rintro key before t between u after rfl hbetween ht hoffer
    have hsettled : key ∈ t.after.settled := by
      refine ht.elim (fun hconv => ?_) id
      rw [List.append_assoc, List.cons_append] at h
      exact h.mem_settled_of_converted hconv
    exact quiet_of_mem_settled (History.upTo _ u after h).2
      (h.mem_settled_of_between hbetween hsettled) hoffer
  refine ⟨fun key => h.isCanonicalText_of_mem, h.mem_settled_iff, hquiet, ?_⟩
  intro key before t between u after heq hbetween ht hu
  obtain ⟨-, hsame, -⟩ := hquiet key before t between u after heq hbetween (Or.inl ht) hu.isOfferOf
  obtain ⟨request, hmem⟩ := hu.converts
  simp [hsame] at hmem

/-- A call as it is carried out in a state. -/
def Turn.of (c : OnDemand) (call : Call) (before : BuildState) : Turn :=
  ⟨call, before, (c.perform call before).1, (c.perform call before).2⟩

/-- A history goes on with any call. -/
theorem History.next {before : BuildState} (h : History c turns settled) (call : Call)
    (resumed : before.settled = settled) :
    History c (turns ++ [Turn.of c call before]) (Turn.of c call before).after.settled :=
  h.turn resumed rfl

/-! A history in which one file is offered under two spellings, changes, and is offered again. -/

/-- A dependency tree with one package, whose manifest the host knows. -/
def sampleDemand : OnDemand where
  settings := { tsconfig := .ofString "/p/tsconfig.json", runtime := "/usr/bin/python3" }
  dependencyRoot := some (.ofString "/p/node_modules")
  finder := .host fun _ _ _ => .ok (some "/p/node_modules/a/package.json")

/-- The state at the start of a build of that tree. -/
def sampleState : BuildState where
  world :=
    { files :=
        { tree := .putAll .empty [⟨"/p/node_modules/a/package.json", .file .newFile []⟩]
          cwd := "/"
          executable := "/usr/bin/python3" }
      environment := .empty
      clock := []
      title := "build"
      children := []
      conversions := []
      events := []
      errorText := "" }
  cache := .empty
  report := {}
  settled := []

/-- A call as `sampleDemand` carries it out. -/
def sampleTurn (call : Call) (before : BuildState) : Turn :=
  ⟨call, before, (sampleDemand.perform call before).1, (sampleDemand.perform call before).2⟩

/-- The first offer of the file. -/
def firstOffer : Turn := sampleTurn (.offer "a" (some "/p/node_modules/./a/i.js")) sampleState

/-- Another offer, of a deep import that leads to the same file. -/
def secondOffer : Turn :=
  sampleTurn (.offer "a/i" (some "/p//node_modules/a/b/../i.js")) firstOffer.after

/-- The report of a change to it. -/
def sampleChange : Turn := sampleTurn (.changed "/p/node_modules/a/i.js") secondOffer.after

/-- The offer after the change. -/
def lastOffer : Turn := sampleTurn (.offer "a" (some "/p/node_modules/a/i.js")) sampleChange.after

/-- The four turns are a history; the first and the last of them convert the file, and the account
covers them. -/
theorem accounted_sample :
    History sampleDemand [firstOffer, secondOffer, sampleChange, lastOffer]
        lastOffer.after.settled ∧
      firstOffer.Converted "/p/node_modules/a/i.js" ∧
      lastOffer.Converted "/p/node_modules/a/i.js" ∧
      Accounted sampleDemand [firstOffer, secondOffer, sampleChange, lastOffer]
        lastOffer.after.settled := by
  have h₁ : History sampleDemand [firstOffer] firstOffer.after.settled := History.start.next _ rfl
  have h₂ : History sampleDemand [firstOffer, secondOffer] secondOffer.after.settled :=
    h₁.next _ rfl
  have h₃ : History sampleDemand [firstOffer, secondOffer, sampleChange]
      sampleChange.after.settled := h₂.next _ rfl
  have h : History sampleDemand [firstOffer, secondOffer, sampleChange, lastOffer]
      lastOffer.after.settled := h₃.next _ rfl
  have hrequest : ∀ t : Turn, t = firstOffer ∨ t = lastOffer →
      .conversion (sampleDemand.requestFor (.ofString "/p/node_modules")
          "/p/node_modules/a/package.json") ∈
        t.after.world.events.drop t.before.world.events.length := by
    rintro t (rfl | rfl) <;> decide +kernel
  refine ⟨h, ⟨⟨"a", _, rfl, by decide +kernel⟩, ⟨_, hrequest _ (Or.inl rfl)⟩, by decide +kernel⟩,
    ⟨⟨"a", _, rfl, by decide +kernel⟩, ⟨_, hrequest _ (Or.inr rfl)⟩, by decide +kernel⟩,
    h.accounted⟩

end ConvertOnce.OnDemand
