import XdsClient.Descriptors.Loading

/-! # Loading many records

The records of a program are loaded one by one, each with what it needs. Which of them comes
first, and how often, decides the order of the files in the pool but not which files are there.
-/
namespace XdsClient.Descriptors
open Library Relation

/-- `loadFileDescriptors`, called for one record after the other. -/
def loadAll {Pool : Type} (runtime : Runtime Pool) (records : List FileDescriptorInfo)
    (pool : Pool) : Pool :=
  records.foldl (fun pool r => loadFileDescriptors runtime r pool) pool

/-- What a record needs is found along its own pointers. -/
theorem reflTransGen_dependsOn_of_reaches {root r : FileDescriptorInfo} (h : Unambiguous root)
    (hr : Reaches root r) {name : String} :
    ReflTransGen (DependsOn root) r.fileName name ↔ ∃ d, Reaches r d ∧ d.fileName = name := by
  constructor
  · intro hpath
    induction hpath with
    | refl => exact ⟨r, .refl, rfl⟩
    | tail _ hstep ih =>
      obtain ⟨d, hd, rfl⟩ := ih
      obtain ⟨e, he, hname⟩ := List.mem_map.mp ((dependsOn_iff h (hr.trans hd) _).mp hstep)
      exact ⟨e, hd.tail he, hname⟩
  · rintro ⟨d, hd, rfl⟩
    induction hd with
    | refl => exact .refl
    | tail hd he ih => exact ih.tail ⟨_, hr.trans hd, rfl, _, he, rfl⟩

section Sequences
variable {Pool : Type} (runtime : Runtime Pool) {root : FileDescriptorInfo}

/-- A list of records is loaded like the dependencies of a record. -/
theorem loadAll_eq_loadDeps (records : List FileDescriptorInfo) (pool : Pool) :
    loadAll runtime records pool =
      loadDeps runtime (fun base64 => (runtime.base64Unescape base64).getD []) records pool := by
  induction records generalizing pool with
  | nil => rfl
  | cons r records ih => exact ih _

theorem loadAll_loaded (hdescribes : Describes runtime root) (hunambiguous : Unambiguous root)
    (records : List FileDescriptorInfo) (hrecords : ∀ r ∈ records, Reaches root r) (pool : Pool) :
    Loaded (DependsOn root) (runtime.files pool) (records.map FileDescriptorInfo.fileName)
      (runtime.files (loadAll runtime records pool)) := by
  have hbytes (r : FileDescriptorInfo) (hr : Reaches root r) :
      runtime.codec.fill ((runtime.base64Unescape r.fileDescriptorBytesBase64).getD []) =
        ⟨some r.fileName, r.deps.map FileDescriptorInfo.fileName⟩ := by
    obtain ⟨bytes, hdecode, hparse⟩ := hdescribes r hr
    rw [hdecode]
    exact runtime.codec.fill_of_parse bytes hparse
  rw [loadAll_eq_loadDeps]
  apply loadDeps_loaded
  intro r hr pool
  exact loadWith_loaded runtime _ hunambiguous hbytes r (hrecords r hr) pool

/-- Records that are in the pool already change nothing. -/
theorem loadAll_of_mem (records : List FileDescriptorInfo) (pool : Pool)
    (h : ∀ r ∈ records, r.fileName ∈ runtime.files pool) : loadAll runtime records pool = pool := by
  induction records with
  | nil => rfl
  | cons r records ih =>
    have hhead : loadFileDescriptors runtime r pool = pool :=
      loadWith_of_mem runtime _ (h r List.mem_cons_self)
    rw [loadAll, List.foldl_cons, hhead]
    exact ih fun d hd => h d (List.mem_cons_of_mem r hd)

theorem mem_loadAll_iff (hdescribes : Describes runtime root) (hunambiguous : Unambiguous root)
    {pool : Pool} (hclosed : Closed (DependsOn root) (runtime.files pool))
    (records : List FileDescriptorInfo) (hrecords : ∀ r ∈ records, Reaches root r) (name : String) :
    name ∈ runtime.files (loadAll runtime records pool) ↔
      name ∈ runtime.files pool ∨ ∃ r ∈ records, ∃ d, Reaches r d ∧ d.fileName = name := by
  rw [(loadAll_loaded runtime hdescribes hunambiguous records hrecords pool).mem_iff_exists hclosed]
  apply or_congr_right
  constructor
  · rintro ⟨file, hfile, hpath⟩
    obtain ⟨r, hr, rfl⟩ := List.mem_map.mp hfile
    exact ⟨r, hr, (reflTransGen_dependsOn_of_reaches hunambiguous (hrecords r hr)).mp hpath⟩
  · rintro ⟨r, hr, hneeded⟩
    exact ⟨r.fileName, List.mem_map_of_mem hr,
      (reflTransGen_dependsOn_of_reaches hunambiguous (hrecords r hr)).mpr hneeded⟩

/-- Records of one program, loaded in any order and any number of times: the pool gets exactly
the files some record needs, each once and after its dependencies; another order, or other
repetitions, of the same records ends with the same files, and when all are loaded no further
call adds anything. -/
theorem records_load_in_any_order (hdescribes : Describes runtime root)
    (hunambiguous : Unambiguous root) (pool : Pool)
    (hclosed : Closed (DependsOn root) (runtime.files pool))
    (records others : List FileDescriptorInfo) (hrecords : ∀ r ∈ records, Reaches root r)
    (hothers : ∀ r, r ∈ others ↔ r ∈ records) :
    (∀ name, name ∈ runtime.files (loadAll runtime records pool) ↔
        name ∈ runtime.files pool ∨ ∃ r ∈ records, ∃ d, Reaches r d ∧ d.fileName = name) ∧
      Builds (DependsOn root) (runtime.files pool) (runtime.files (loadAll runtime records pool)) ∧
      (∀ name, name ∈ runtime.files (loadAll runtime others pool) ↔
        name ∈ runtime.files (loadAll runtime records pool)) ∧
      loadAll runtime others (loadAll runtime records pool) = loadAll runtime records pool := by
  have hreached (r : FileDescriptorInfo) (hr : r ∈ others) : Reaches root r :=
    hrecords r ((hothers r).mp hr)
  have hmem := mem_loadAll_iff runtime hdescribes hunambiguous hclosed records hrecords
  have hmem' := mem_loadAll_iff runtime hdescribes hunambiguous hclosed others hreached
  refine ⟨hmem, (loadAll_loaded runtime hdescribes hunambiguous records hrecords pool).builds,
    fun name => ?_, ?_⟩
  · rw [hmem, hmem']
    simp only [hothers]
  · apply loadAll_of_mem
    intro r hr
    exact (hmem r.fileName).mpr (Or.inr ⟨r, (hothers r).mp hr, r, .refl, rfl⟩)

end Sequences

/-- A file and its import, in one order and then in the other. -/
theorem records_load_in_any_order_import :
    Builds (DependsOn rootInfo) [] (listRuntime.files (loadAll listRuntime [leafInfo, rootInfo] [])) ∧
      loadAll listRuntime [rootInfo, leafInfo, rootInfo]
          (loadAll listRuntime [leafInfo, rootInfo] []) =
        loadAll listRuntime [leafInfo, rootInfo] [] := by
  have hclosed : Closed (DependsOn rootInfo) (listRuntime.files []) := by
    rintro file hfile
    cases hfile
  have hleaf : Reaches rootInfo leafInfo :=
    .single (by simp [rootInfo, FileDescriptorInfo.deps])
  have hrecords : ∀ r ∈ [leafInfo, rootInfo], Reaches rootInfo r := by
    intro r hr
    simp only [List.mem_cons, List.not_mem_nil, or_false] at hr
    rcases hr with rfl | rfl
    · exact hleaf
    · exact .refl
  obtain ⟨-, hbuilds, -, hagain⟩ := records_load_in_any_order listRuntime describes_rootInfo
    unambiguous_rootInfo [] hclosed [leafInfo, rootInfo] [rootInfo, leafInfo, rootInfo] hrecords
    (by simp)
  exact ⟨hbuilds, hagain⟩

end XdsClient.Descriptors
