import XdsClient.Descriptors.Pool
import XdsClient.Library.Dependency

/-! # What the loaders leave in the pool

The records are walked along their pointers, the pool only knows file names. `DependsOn` is
the graph of the names; as long as a name stands for one record it has no cycle, and the
loader that decodes its records builds every file after its dependencies. The loader of the
transcoder hands an empty proto to every `BuildFile` and adds nothing.
-/
namespace XdsClient.Descriptors
open Library Relation

/-! ## The graph of the records and the graph of their names -/

def Reaches : FileDescriptorInfo → FileDescriptorInfo → Prop := ReflTransGen fun r d => d ∈ r.deps

/-- A record for the file points to a record for the dependency. -/
def DependsOn (root : FileDescriptorInfo) (file dependency : String) : Prop :=
  ∃ r, Reaches root r ∧ r.fileName = file ∧ ∃ d ∈ r.deps, d.fileName = dependency

/-- Every file has one record. -/
def Unambiguous (root : FileDescriptorInfo) : Prop :=
  ∀ r r', Reaches root r → Reaches root r' → r.fileName = r'.fileName → r = r'

/-- The bytes of every record decode to the proto of its file, with its `deps` as imports. -/
def Describes {Pool : Type} (runtime : Runtime Pool) (root : FileDescriptorInfo) : Prop :=
  ∀ r, Reaches root r → ∃ bytes, runtime.base64Unescape r.fileDescriptorBytesBase64 = some bytes ∧
    runtime.codec.parse bytes = some ⟨some r.fileName, r.deps.map FileDescriptorInfo.fileName⟩

theorem sizeOf_lt_of_mem_deps {r d : FileDescriptorInfo} (h : d ∈ r.deps) :
    sizeOf d < sizeOf r := by
  obtain ⟨fileName, base64, deps⟩ := r
  have hd : sizeOf d < sizeOf deps := List.sizeOf_lt_of_mem h
  simp only [FileDescriptorInfo.mk.sizeOf_spec]
  omega

theorem FileDescriptorInfo.inductionOnDeps {motive : FileDescriptorInfo → Prop}
    (h : ∀ r, (∀ d ∈ r.deps, motive d) → motive r) (r : FileDescriptorInfo) : motive r := by
  induction hn : sizeOf r using Nat.strong_induction_on generalizing r with
  | _ n ih =>
    apply h
    intro d hd
    exact ih (sizeOf d) (hn ▸ sizeOf_lt_of_mem_deps hd) d rfl

section Graph
variable {root r : FileDescriptorInfo}

theorem reflTransGen_dependsOn_iff {name : String} :
    ReflTransGen (DependsOn root) root.fileName name ↔ ∃ r, Reaches root r ∧ r.fileName = name := by
  constructor
  · intro h
    induction h with
    | refl => exact ⟨root, .refl, rfl⟩
    | tail _ hstep _ =>
      obtain ⟨r, hr, -, d, hd, hname⟩ := hstep
      exact ⟨d, hr.tail hd, hname⟩
  · rintro ⟨r, hr, rfl⟩
    induction hr with
    | refl => exact .refl
    | tail hr hd ih => exact ih.tail ⟨_, hr, rfl, _, hd, rfl⟩

theorem dependsOn_iff (h : Unambiguous root) (hr : Reaches root r) (name : String) :
    DependsOn root r.fileName name ↔ name ∈ r.deps.map FileDescriptorInfo.fileName := by
  rw [List.mem_map]
  constructor
  · rintro ⟨r', hr', hname, hdep⟩
    rw [h r' r hr' hr hname] at hdep
    exact hdep
  · exact fun hdep => ⟨r, hr, rfl, hdep⟩

theorem sizeOf_lt_of_transGen (h : Unambiguous root) {file dependency : String}
    (hpath : TransGen (DependsOn root) file dependency) {r d : FileDescriptorInfo}
    (hr : Reaches root r) (hfile : r.fileName = file) (hd : Reaches root d)
    (hdependency : d.fileName = dependency) : sizeOf d < sizeOf r := by
  induction hpath generalizing d with
  | single hstep =>
    obtain ⟨r', hr', hname, d', hd', hname'⟩ := hstep
    rw [← h r' r hr' hr (hname.trans hfile.symm),
      ← h d' d (hr'.tail hd') hd (hname'.trans hdependency.symm)]
    exact sizeOf_lt_of_mem_deps hd'
  | tail _ hstep ih =>
    obtain ⟨r', hr', hname, d', hd', hname'⟩ := hstep
    rw [← h d' d (hr'.tail hd') hd (hname'.trans hdependency.symm)]
    exact (sizeOf_lt_of_mem_deps hd').trans (ih hr' hname)

theorem dependsOn_acyclic (h : Unambiguous root) (hr : Reaches root r) :
    ¬ TransGen (DependsOn root) r.fileName r.fileName := by
  intro hcycle
  exact lt_irrefl _ (sizeOf_lt_of_transGen h hcycle hr rfl hr rfl)

end Graph

/-! ## The walk -/

section Walk
variable {Pool : Type} (runtime : Runtime Pool) (bytes : String → List UInt8)

theorem loadWith_of_mem {r : FileDescriptorInfo} {pool : Pool}
    (h : r.fileName ∈ runtime.files pool) : loadWith runtime bytes r pool = pool := by
  obtain ⟨fileName, base64, deps⟩ := r
  rw [loadWith, if_pos ((runtime.findFileByName_iff pool fileName).mpr h)]

theorem loadWith_of_not_mem {r : FileDescriptorInfo} {pool : Pool}
    (h : r.fileName ∉ runtime.files pool) :
    loadWith runtime bytes r pool = runtime.buildFile (loadDeps runtime bytes r.deps pool)
      (runtime.codec.fill (bytes r.fileDescriptorBytesBase64)) := by
  obtain ⟨fileName, base64, deps⟩ := r
  rw [loadWith, if_neg (mt (runtime.findFileByName_iff pool fileName).mp h)]
  rfl

variable {root : FileDescriptorInfo}

theorem loadDeps_loaded (deps : List FileDescriptorInfo)
    (hdeps : ∀ d ∈ deps, ∀ pool, Loaded (DependsOn root) (runtime.files pool) [d.fileName]
      (runtime.files (loadWith runtime bytes d pool))) (pool : Pool) :
    Loaded (DependsOn root) (runtime.files pool) (deps.map FileDescriptorInfo.fileName)
      (runtime.files (loadDeps runtime bytes deps pool)) := by
  induction deps generalizing pool with
  | nil => exact Loaded.nil _
  | cons d deps ih =>
    rw [loadDeps, List.map_cons]
    have hhead := hdeps d List.mem_cons_self pool
    exact hhead.cons (ih (fun e he => hdeps e (List.mem_cons_of_mem d he)) _)

/-- A loader that decodes its records builds a file and what it needs. -/
theorem loadWith_loaded (hunambiguous : Unambiguous root)
    (hbytes : ∀ r, Reaches root r → runtime.codec.fill (bytes r.fileDescriptorBytesBase64) =
      ⟨some r.fileName, r.deps.map FileDescriptorInfo.fileName⟩)
    (r : FileDescriptorInfo) (hr : Reaches root r) (pool : Pool) :
    Loaded (DependsOn root) (runtime.files pool) [r.fileName]
      (runtime.files (loadWith runtime bytes r pool)) := by
  induction r using FileDescriptorInfo.inductionOnDeps generalizing pool with
  | _ r ih =>
    by_cases hfound : r.fileName ∈ runtime.files pool
    · rw [loadWith_of_mem runtime bytes hfound]
      exact Loaded.present hfound
    · have hdeps : Loaded (DependsOn root) (runtime.files pool)
          (r.deps.map FileDescriptorInfo.fileName)
          (runtime.files (loadDeps runtime bytes r.deps pool)) :=
        loadDeps_loaded runtime bytes r.deps (fun d hd => ih d hd (hr.tail hd)) pool
      have hiff := dependsOn_iff hunambiguous hr
      have hnew := hdeps.not_mem (fun name hname => (hiff name).mpr hname) hfound
        (dependsOn_acyclic hunambiguous hr)
      rw [loadWith_of_not_mem runtime bytes hfound, hbytes r hr,
        runtime.files_buildFile _ _ r.fileName rfl hnew (fun _ hname => hdeps.seeds_mem hname)]
      exact hdeps.build hiff hnew

/-- Without any bytes, nothing is built. -/
theorem loadDeps_of_forall (deps : List FileDescriptorInfo)
    (h : ∀ d ∈ deps, ∀ pool, loadWith runtime bytes d pool = pool) (pool : Pool) :
    loadDeps runtime bytes deps pool = pool := by
  induction deps with
  | nil => rfl
  | cons d deps ih =>
    rw [loadDeps, h d List.mem_cons_self]
    exact ih fun e he => h e (List.mem_cons_of_mem d he)

theorem transcoder_load_eq (r : FileDescriptorInfo) (pool : Pool) :
    TextFormatTranscoder.loadFileDescriptors runtime r pool = pool := by
  rw [TextFormatTranscoder.loadFileDescriptors]
  induction r using FileDescriptorInfo.inductionOnDeps generalizing pool with
  | _ r ih =>
    by_cases hfound : r.fileName ∈ runtime.files pool
    · exact loadWith_of_mem runtime _ hfound
    · have hempty : runtime.codec.fill [] = {} := runtime.codec.fill_of_parse [] runtime.parse_nil
      rw [loadWith_of_not_mem runtime _ hfound, hempty, runtime.buildFile_unnamed _ _ rfl]
      exact loadDeps_of_forall runtime _ r.deps ih pool

end Walk

/-! ## The two loaders -/

section Loaders
variable {Pool : Type} (runtime : Runtime Pool)

/-- The pool gets every file reachable from the root, each one once and after its dependencies,
and loading the root again changes nothing. -/
structure Loads (load : FileDescriptorInfo → Pool → Pool) (root : FileDescriptorInfo)
    (pool : Pool) : Prop where
  mem_iff : ∀ name, name ∈ runtime.files (load root pool) ↔
    name ∈ runtime.files pool ∨ ∃ r, Reaches root r ∧ r.fileName = name
  builds : Builds (DependsOn root) (runtime.files pool) (runtime.files (load root pool))
  again : load root (load root pool) = load root pool

variable {root : FileDescriptorInfo} {pool : Pool}

/-- The loader that decodes its records loads the root and all it needs. -/
theorem loadFileDescriptors_loads (hdescribes : Describes runtime root)
    (hunambiguous : Unambiguous root) (hclosed : Closed (DependsOn root) (runtime.files pool)) :
    Loads runtime (loadFileDescriptors runtime) root pool := by
  have hbytes (r : FileDescriptorInfo) (hr : Reaches root r) :
      runtime.codec.fill ((runtime.base64Unescape r.fileDescriptorBytesBase64).getD []) =
        ⟨some r.fileName, r.deps.map FileDescriptorInfo.fileName⟩ := by
    obtain ⟨bytes, hdecode, hparse⟩ := hdescribes r hr
    rw [hdecode]
    exact runtime.codec.fill_of_parse bytes hparse
  have hloaded := loadWith_loaded runtime (fun base64 => (runtime.base64Unescape base64).getD [])
    hunambiguous hbytes root .refl pool
  refine ⟨fun name => ?_, hloaded.builds, ?_⟩
  · exact (hloaded.mem_iff hclosed).trans (or_congr_right reflTransGen_dependsOn_iff)
  · exact loadWith_of_mem runtime _ (hloaded.seeds_mem (List.mem_singleton_self _))

/-- A loader that returns the pool as it was has done its work if the root was there. -/
theorem Loads.of_mem {load : FileDescriptorInfo → Pool → Pool} (hload : load root pool = pool)
    (hclosed : Closed (DependsOn root) (runtime.files pool))
    (hroot : root.fileName ∈ runtime.files pool) : Loads runtime load root pool where
  mem_iff := by
    intro name
    rw [hload]
    refine ⟨Or.inl, fun h => h.elim id fun hreached => ?_⟩
    exact hclosed.mem_of_reflTransGen hroot (reflTransGen_dependsOn_iff.mpr hreached)
  builds := by
    rw [hload]
    exact .start
  again := by rw [hload, hload]

/-- Both loaders load the root and all it needs, and leave the same files. -/
def LoadersAgree (root : FileDescriptorInfo) (pool : Pool) : Prop :=
  (∀ name, name ∈ runtime.files (TextFormatTranscoder.loadFileDescriptors runtime root pool) ↔
    name ∈ runtime.files (loadFileDescriptors runtime root pool)) ∧
  Loads runtime (TextFormatTranscoder.loadFileDescriptors runtime) root pool ∧
  Loads runtime (loadFileDescriptors runtime) root pool

/-- The loader of the transcoder adds no file, so the two agree exactly when there is none to
add. -/
theorem loaders_agree_iff (hclosed : Closed (DependsOn root) (runtime.files pool)) :
    LoadersAgree runtime root pool ↔ root.fileName ∈ runtime.files pool := by
  have htranscoder := transcoder_load_eq runtime root pool
  constructor
  · rintro ⟨-, hloads, -⟩
    have hroot := (hloads.mem_iff root.fileName).mpr (Or.inr ⟨root, .refl, rfl⟩)
    rwa [htranscoder] at hroot
  · intro hroot
    have hinternal : loadFileDescriptors runtime root pool = pool := loadWith_of_mem runtime _ hroot
    refine ⟨fun name => ?_, Loads.of_mem runtime htranscoder hclosed hroot,
      Loads.of_mem runtime hinternal hclosed hroot⟩
    rw [htranscoder, hinternal]

end Loaders

/-! ## A file with one import -/

def leafInfo : FileDescriptorInfo := .mk "a.proto" "CgdhLnByb3Rv" []

def rootInfo : FileDescriptorInfo := .mk "b.proto" "CgdiLnByb3RvGgdhLnByb3Rv" [leafInfo]

theorem reaches_rootInfo {r : FileDescriptorInfo} (h : Reaches rootInfo r) :
    r = rootInfo ∨ r = leafInfo := by
  induction h with
  | refl => exact Or.inl rfl
  | tail _ hd ih =>
    rcases ih with rfl | rfl
    · right
      simpa [rootInfo, FileDescriptorInfo.deps] using hd
    · simp [leafInfo, FileDescriptorInfo.deps] at hd

theorem describes_rootInfo : Describes listRuntime rootInfo := by
  have ha : utf8 "a.proto" = [97, 46, 112, 114, 111, 116, 111] := by decide
  have hb : utf8 "b.proto" = [98, 46, 112, 114, 111, 116, 111] := by decide
  have hleaf : protoCodec.serialize ⟨some "a.proto", []⟩ = [10, 7, 97, 46, 112, 114, 111, 116, 111] := by
    simp [protoCodec, Codec.ofFields, protoFields, writeField, varint, ha]
  have hroot : protoCodec.serialize ⟨some "b.proto", ["a.proto"]⟩ =
      [10, 7, 98, 46, 112, 114, 111, 116, 111, 26, 7, 97, 46, 112, 114, 111, 116, 111] := by
    simp [protoCodec, Codec.ofFields, protoFields, writeField, varint, ha, hb]
  intro r hr
  rcases reaches_rootInfo hr with rfl | rfl
  · refine ⟨_, ?_, protoCodec.parse_serialize ⟨some "b.proto", ["a.proto"]⟩⟩
    rw [hroot]
    decide
  · refine ⟨_, ?_, protoCodec.parse_serialize ⟨some "a.proto", []⟩⟩
    rw [hleaf]
    decide

theorem unambiguous_rootInfo : Unambiguous rootInfo := by
  intro r r' hr hr' hname
  rcases reaches_rootInfo hr with rfl | rfl <;> rcases reaches_rootInfo hr' with rfl | rfl
  · rfl
  · exact absurd hname (by decide)
  · exact absurd hname (by decide)
  · rfl

/-- A pool that holds both files already. -/
theorem loaders_agree_iff_loaded :
    LoadersAgree listRuntime rootInfo [⟨some "a.proto", []⟩, ⟨some "b.proto", ["a.proto"]⟩] := by
  have hclosed : Closed (DependsOn rootInfo) (listRuntime.files
      [⟨some "a.proto", []⟩, ⟨some "b.proto", ["a.proto"]⟩]) := by
    rintro file - dependency ⟨r, hr, -, d, hd, rfl⟩
    rcases reaches_rootInfo (hr.tail hd) with rfl | rfl <;> decide
  exact (loaders_agree_iff listRuntime hclosed).mpr (by decide)

/-- On an empty pool the file and its import are missing from the pool of the transcoder. -/
theorem transcoder_leaves_pool_empty :
    Describes listRuntime rootInfo ∧ Unambiguous rootInfo ∧
      "b.proto" ∈ listRuntime.files (loadFileDescriptors listRuntime rootInfo []) ∧
      TextFormatTranscoder.loadFileDescriptors listRuntime rootInfo [] = [] ∧
      ¬ LoadersAgree listRuntime rootInfo [] := by
  have hclosed : Closed (DependsOn rootInfo) (listRuntime.files []) := by
    rintro file hfile
    cases hfile
  have hloads := loadFileDescriptors_loads listRuntime describes_rootInfo unambiguous_rootInfo hclosed
  have htranscoder := transcoder_load_eq listRuntime rootInfo []
  refine ⟨describes_rootInfo, unambiguous_rootInfo, ?_, htranscoder, ?_⟩
  · exact (hloads.mem_iff "b.proto").mpr (Or.inr ⟨rootInfo, .refl, rfl⟩)
  · rintro ⟨-, hagrees, -⟩
    have hroot := (hagrees.mem_iff "b.proto").mpr (Or.inr ⟨rootInfo, .refl, rfl⟩)
    rw [htranscoder] at hroot
    cases hroot

end XdsClient.Descriptors
