import ConvertOnce.Proofs.FileSystem.Holder
import ConvertOnce.Proofs.OnDemand.Conversion

/-!
# What the converter is called for

With a finder that searches the files, the converter is only called for packages that it can
rewrite: their manifest can be overwritten, and new names can be added beside it, at the very moment
of the call (`OnDemand.requested_of_conversion`).
-/

namespace ConvertOnce.OnDemand

variable {c : OnDemand} {root : Path} {moduleName name manifest : String} {file : Option String}
  {s : BuildState} {request : ConversionRequest}

/-- The converter is called, for the package of the manifest and on behalf of the file. -/
structure Requested (c : OnDemand) (root : Path) (moduleName : String) (file : Option String)
    (name manifest : String) (s : BuildState) (request : ConversionRequest) : Prop where
  /-- There is a dependency tree. -/
  root_eq : c.dependencyRoot = some root
  /-- The file is known. -/
  file_eq : file = some name
  /-- The module is not a relative one. -/
  not_local : isLocalName moduleName = false
  /-- The file is not settled. -/
  unsettled : canonicalText name ∉ s.settled
  /-- The manifest is the one that is found. -/
  found : (c.finder.manifest? moduleName name s.world).1 = some manifest
  /-- The converter is called once, and with this request. -/
  calls : c.Calls moduleName file s request
  /-- The request names the tree. -/
  basePath_eq : request.basePath = root.text
  /-- It names the directory of the manifest. -/
  packagePath_eq : request.packagePath = directoryText manifest
  /-- Since the call the files have changed as the converter changes them, and in no other way. -/
  files_eq : (c.offer moduleName file s).2.world.files
    = { s.world.files with tree := s.world.files.tree.putAll s.world.nextConversion.puts }
  /-- The package can be rewritten. -/
  rewritable : s.world.files.Rewritable manifest

/-- A package that is found by a search can be rewritten when the converter is called for it. -/
theorem Reaches.rewritable {dirname : String} (hfinder : c.finder = .search dirname)
    (h : c.Reaches root moduleName file name manifest s) : s.world.files.Rewritable manifest := by
  have hfound := h.found
  rw [hfinder] at hfound
  obtain ⟨p, rfl, hname⟩ := Finder.exists_path_of_manifest? hfound
  have hparts := Path.parts_ne_nil_of_manifestName hname
  exact FileSystem.rewritable_of_not_protected hparts h.writable

/-- **The converter is only called for packages that it can rewrite.** -/
theorem requested_of_conversion {dirname : String} (hfinder : c.finder = .search dirname)
    (hmem : .conversion request ∈
      (c.offer moduleName file s).2.world.events.drop s.world.events.length) :
    ∃ root name manifest, c.Requested root moduleName file name manifest s request := by
  rcases c.reaches_or_onlyAsked moduleName file s with ⟨root, name, manifest, hreaches⟩ | hasked
  · refine ⟨root, name, manifest, ?_⟩
    have hrequest := hreaches.request_eq hmem
    exact {
      root_eq := hreaches.concerns.root_eq
      file_eq := hreaches.concerns.file_eq
      not_local := hreaches.concerns.not_local
      unsettled := hreaches.unsettled
      found := hreaches.found
      calls := by rw [hrequest]; exact hreaches.calls
      basePath_eq := by rw [hrequest, requestFor]
      packagePath_eq := by rw [hrequest, requestFor]
      files_eq := hreaches.files_offer
      rewritable := hreaches.rewritable hfinder }
  · exact absurd hmem (not_mem_drop_of_onlyAsked hasked)

/-! ### A package behind a link -/

/-- A project that finds its packages by the usual search. -/
def linkedDemand : OnDemand where
  settings := { tsconfig := .ofString "/p/tsconfig.json", runtime := "/usr/bin/python3" }
  dependencyRoot := some (.ofString "/p/node_modules")
  finder := .usual

/-- Its package `a` is a link to a directory beside the tree. -/
def linkedState : BuildState where
  world := .ofFiles {
    tree := .putAll .empty [⟨"/p/lib/package.json", .file .newFile []⟩,
      ⟨"/p/node_modules/a", .link "../lib"⟩]
    cwd := "/p"
    executable := "/usr/bin/python3" }
  cache := .empty
  report := {}
  settled := []

/-- The request for the package, which names the link and not what it leads to. -/
def linkedRequest : ConversionRequest :=
  linkedDemand.requestFor (.ofString "/p/node_modules") "/p/node_modules/a/package.json"

/-- The offer of a file of the package. -/
theorem requested_linked :
    .conversion linkedRequest
        ∈ (linkedDemand.offer "a" (some "/p/node_modules/a/i.js") linkedState).2.world.events.drop
          linkedState.world.events.length ∧
      ∃ root name manifest, linkedDemand.Requested root "a" (some "/p/node_modules/a/i.js") name
        manifest linkedState linkedRequest := by
  have hmem : .conversion linkedRequest
      ∈ (linkedDemand.offer "a" (some "/p/node_modules/a/i.js") linkedState).2.world.events.drop
        linkedState.world.events.length := by
    decide +kernel
  have hfinder : linkedDemand.finder = .search dependencyDirectory := rfl
  exact ⟨hmem, requested_of_conversion hfinder hmem⟩

end ConvertOnce.OnDemand
