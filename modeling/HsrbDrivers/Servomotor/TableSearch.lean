import HsrbDrivers.Servomotor.TableLoads

namespace HsrbDrivers.Servomotor
open CText

-- A file system that stays as it is: what the status of a path says, if it can be had, what is
-- read from a file that can be opened, and the entries of a directory in the order in which
-- they come, with whether the iteration gets to its end. `home` is the variable `HOME`.
structure FileSystem where
  home : Option (List UInt8)
  status : List UInt8 → Option Bool
  content : List UInt8 → Option (List UInt8)
  entries : List UInt8 → List (List UInt8) × Bool

namespace ControlTable

def calculateMd5Sum (csv : Csv) (t : ControlTable) (content : Option (List UInt8)) : LoadError × ControlTable :=
  match content with
  | none => (.fileOpenError,t)
  | some message => (.success,{t with md5sum := csv.md5 message})

def homeTable (homePath : List UInt8) : List UInt8 := homePath ++ ascii "/.control_table/control_table.csv"

def versionTables (packagePath : List UInt8) : List UInt8 := packagePath ++ ascii "/control_tables"

def versionTable (entry : List UInt8) : List UInt8 := entry ++ ascii "/control_table.csv"

-- The loop over the version directories; `none` when an exception leaves it.
def searchVersions (csv : Csv) (fs : FileSystem) (hwHash : List UInt8) (ends : Bool) :
    List (List UInt8) → ControlTable → List UInt8 → Option (Bool × ControlTable × List UInt8)
  | [],t,selected => if ends then some (false,t,selected) else none
  | entry :: rest,t,selected =>
    if fs.status (versionTable entry) ≠ some true then searchVersions csv fs hwHash ends rest t selected else
    match calculateMd5Sum csv t (fs.content (versionTable entry)) with
    | (.success,t) =>
      if hwHash = t.md5sum then
        match load csv t (fs.content (versionTable entry)) with
        | none => none
        | some (.success,_,t) => some (true,t,versionTable entry)
        | some (_,_,t) => some (false,t,selected)
      else searchVersions csv fs hwHash ends rest t selected
    | (_,t) => searchVersions csv fs hwHash ends rest t selected

-- The answer, the table and the selected path. Without `HOME` no string can be made of it.
def loadControlTable (csv : Csv) (fs : FileSystem) (packagePath hwHash : List UInt8) (t : ControlTable) (selected : List UInt8) :
    Option (Bool × ControlTable × List UInt8) := do
  let homePath ← fs.home
  if fs.status (homeTable homePath) = some true then
    match load csv t (fs.content (homeTable homePath)) with
    | none => none
    | some (.success,_,t) => if hwHash = t.md5sum then some (true,t,homeTable homePath) else some (false,t,selected)
    | some (_,_,t) => some (false,t,selected)
  else
    let there ← fs.status (versionTables packagePath)
    if ¬ there then some (false,t,selected) else
    let (entries,ends) := fs.entries (versionTables packagePath)
    searchVersions csv fs hwHash ends entries t selected

-- A file that holds a table with the hash, which a fresh table takes over as this one.
def Holds (csv : Csv) (fs : FileSystem) (hwHash path : List UInt8) (u : ControlTable) : Prop :=
  ∃ message report, fs.content path = some message ∧ csv.md5 message = hwHash ∧
    load csv fresh (some message) = some (.success,report,u)

-- A version directory whose file has the hash, be it a table or not.
def Matches (csv : Csv) (fs : FileSystem) (hwHash entry : List UInt8) : Prop :=
  fs.status (versionTable entry) = some true ∧ ∃ message, fs.content (versionTable entry) = some message ∧ csv.md5 message = hwHash

-- Without a table at home there is a version directory whose table has the hash, and every
-- file with the hash that comes before it is a table too.
def Offered (csv : Csv) (fs : FileSystem) (packagePath hwHash : List UInt8) : Prop :=
  ∃ homePath, fs.home = some homePath ∧ fs.status (homeTable homePath) ≠ some true ∧
    fs.status (versionTables packagePath) = some true ∧
    ∃ before entry after u, (fs.entries (versionTables packagePath)).1 = before ++ entry :: after ∧
      fs.status (versionTable entry) = some true ∧ Holds csv fs hwHash (versionTable entry) u ∧
      ∀ other ∈ before, Matches csv fs hwHash other → ∃ v, Holds csv fs hwHash (versionTable other) v

theorem load_md5sum (csv : Csv) (t : ControlTable) (digest : List UInt8) (message : List UInt8) :
    load csv {t with md5sum := digest} (some message) = load csv t (some message) := rfl

theorem loadLines_md5sum {csv : Csv} {lines : List (List UInt8)} {lastAddress numLine : Nat} {t u : ControlTable} {error : LoadError}
    {report : Option (String × Nat)} (loaded : loadLines csv lines lastAddress numLine t = some (error,report,u)) :
    u.md5sum = t.md5sum := by
  induction lines generalizing lastAddress numLine t with
  | nil =>
      cases loaded
      rfl
  | cons line lines ih =>
      obtain ⟨⟨failure,next,after⟩,taken,loaded⟩ := Option.bind_eq_some_iff.mp loaded
      by_cases fine : failure = .success
      · subst fine
        obtain ⟨_,_,rfl,_⟩ := processLine_success taken
        have kept := ih loaded
        exact kept
      · simp only [ne_eq,fine,not_false_eq_true,if_true] at loaded
        cases loaded
        rw [processLine_refused taken fine]

theorem load_hash {csv : Csv} {t u : ControlTable} {message : List UInt8} {error : LoadError} {report : Option (String × Nat)}
    (loaded : load csv t (some message) = some (error,report,u)) : u.md5sum = csv.md5 message :=
  loadLines_md5sum loaded

section
variable {csv : Csv} {fs : FileSystem} {hwHash : List UInt8} {ends : Bool} {entries : List (List UInt8)} {digest selected : List UInt8}

theorem searchVersions_passes {entry : List UInt8} (other : ¬ Matches csv fs hwHash entry) (t : ControlTable) :
    ∃ digest, searchVersions csv fs hwHash ends (entry :: entries) t selected =
      searchVersions csv fs hwHash ends entries {t with md5sum := digest} selected := by
  rw [searchVersions]
  by_cases there : fs.status (versionTable entry) = some true
  case neg => exact ⟨t.md5sum,if_pos there⟩
  rw [if_neg (not_not.mpr there)]
  cases read : fs.content (versionTable entry) with
  | none => exact ⟨t.md5sum,rfl⟩
  | some message =>
      have differs : ¬ hwHash = csv.md5 message := fun same => other ⟨there,message,read,same.symm⟩
      exact ⟨csv.md5 message,if_neg differs⟩

theorem searchVersions_meets {entry message : List UInt8} (there : fs.status (versionTable entry) = some true)
    (read : fs.content (versionTable entry) = some message) (same : csv.md5 message = hwHash) (t : ControlTable) :
    searchVersions csv fs hwHash ends (entry :: entries) t selected = match load csv t (some message) with
      | none => none
      | some (.success,_,t) => some (true,t,versionTable entry)
      | some (_,_,t) => some (false,t,selected) := by
  simp only [searchVersions,there,read,calculateMd5Sum,same,load_md5sum]
  rfl

theorem searchVersions_sound {u : ControlTable} {path : List UInt8}
    (found : searchVersions csv fs hwHash ends entries ⟨digest,[]⟩ selected = some (true,u,path)) : Holds csv fs hwHash path u := by
  induction entries generalizing digest with
  | nil =>
      rw [searchVersions] at found
      split at found
      · cases found
      · cases found
  | cons entry entries ih =>
      by_cases first : Matches csv fs hwHash entry
      · obtain ⟨there,message,read,same⟩ := first
        rw [searchVersions_meets there read same] at found
        split at found
        · cases found
        · rename_i loaded
          cases found
          exact ⟨message,_,read,same,loaded⟩
        · cases found
      · obtain ⟨other,passed⟩ := @searchVersions_passes csv fs hwHash ends entries selected entry first ⟨digest,[]⟩
        rw [passed] at found
        exact ih found

theorem searchVersions_complete {before after : List (List UInt8)} {entry : List UInt8} {u : ControlTable}
    (there : fs.status (versionTable entry) = some true) (holds : Holds csv fs hwHash (versionTable entry) u)
    (earlier : ∀ other ∈ before, Matches csv fs hwHash other → ∃ v, Holds csv fs hwHash (versionTable other) v) :
    ∃ v path, searchVersions csv fs hwHash ends (before ++ entry :: after) ⟨digest,[]⟩ selected = some (true,v,path) := by
  have stops : ∀ entry u entries, fs.status (versionTable entry) = some true → Holds csv fs hwHash (versionTable entry) u →
      ∀ digest, searchVersions csv fs hwHash ends (entry :: entries) ⟨digest,[]⟩ selected = some (true,u,versionTable entry) := by
    rintro entry u entries there ⟨message,report,read,same,loaded⟩ digest
    rw [searchVersions_meets there read same]
    have again : load csv ⟨digest,[]⟩ (some message) = some (.success,report,u) := loaded
    rw [again]
  induction before generalizing digest with
  | nil => exact ⟨u,_,stops entry u after there holds digest⟩
  | cons other before ih =>
      obtain ⟨first,rest⟩ := List.forall_mem_cons.mp earlier
      by_cases same : Matches csv fs hwHash other
      · obtain ⟨v,table⟩ := first same
        exact ⟨v,_,stops other v _ same.1 table digest⟩
      · obtain ⟨digest',passed⟩ := @searchVersions_passes csv fs hwHash ends (before ++ entry :: after) selected other same ⟨digest,[]⟩
        rw [List.cons_append,passed]
        exact ih rest

end

theorem loadControlTable_selects (csv : Csv) (fs : FileSystem) (packagePath hwHash selected : List UInt8) :
    (∀ u path, loadControlTable csv fs packagePath hwHash fresh selected = some (true,u,path) →
      u.md5sum = hwHash ∧ Holds csv fs hwHash path u) ∧
    (Offered csv fs packagePath hwHash →
      ∃ u path, loadControlTable csv fs packagePath hwHash fresh selected = some (true,u,path)) := by
  constructor
  · intro u path found
    suffices holds : Holds csv fs hwHash path u by
      obtain ⟨message,report,read,same,loaded⟩ := id holds
      exact ⟨(load_hash loaded).trans same,holds⟩
    obtain ⟨homePath,home,found⟩ := Option.bind_eq_some_iff.mp found
    split at found
    · cases read : fs.content (homeTable homePath) with
      | none =>
          rw [read] at found
          cases found
      | some message =>
          rw [read] at found
          split at found
          · cases found
          · rename_i loaded
            split at found
            · rename_i same
              cases found
              exact ⟨message,_,read,(load_hash loaded).symm.trans same.symm,loaded⟩
            · cases found
          · cases found
    · obtain ⟨there,_,found⟩ := Option.bind_eq_some_iff.mp found
      split at found
      · cases found
      · exact searchVersions_sound found
  · rintro ⟨homePath,home,away,there,before,entry,after,u,split,exist,holds,earlier⟩
    obtain ⟨v,path,search⟩ := @searchVersions_complete csv fs hwHash (fs.entries (versionTables packagePath)).2
      (List.replicate 16 0) selected before after entry u exist holds earlier
    rw [← split] at search
    refine ⟨v,path,?_⟩
    simp only [loadControlTable,home,there,Option.bind_eq_bind,Option.bind_some,if_neg away]
    exact search

def versioned (tables : List (List UInt8 × List UInt8)) : FileSystem where
  home := some []
  status path := some (path = versionTables [] || (tables.map fun table => versionTable table.1).contains path)
  content path := (tables.find? fun table => versionTable table.1 = path).map Prod.snd
  entries path := (if path = versionTables [] then tables.map Prod.fst else [],true)

def twoVersions : FileSystem := versioned [([48],brokenFile),([49],smallFile)]

theorem smallFile_loads (digest : List UInt8 → List UInt8) :
    ∃ u, load {plainCsv [] with md5 := digest} fresh (some smallFile) = some (.success,none,u) := by
  have taken : AllTaken (plainCsv []) fresh.names (getlines [] smallFile).tail := ⟨by decide +kernel,by decide +kernel,trivial⟩
  obtain ⟨rows,_,loaded,_⟩ := @load_taken {plainCsv [] with md5 := digest} fresh smallFile taken
  exact ⟨_,loaded⟩

theorem smallFile_read : twoVersions.content (versionTable [49]) = some smallFile := by decide +kernel

theorem smallFile_selected : ∃ u path,
    loadControlTable filesCsv twoVersions [] smallFileMd5 fresh [] = some (true,u,path) := by
  obtain ⟨u,loaded⟩ := smallFile_loads filesCsv.md5
  have other : ∀ entry ∈ [[48]], Matches filesCsv twoVersions smallFileMd5 entry →
      ∃ v, Holds filesCsv twoVersions smallFileMd5 (versionTable entry) v := by
    intro entry member
    rw [List.mem_singleton.mp member]
    rintro ⟨_,message,read,same⟩
    have broken : twoVersions.content (versionTable [48]) = some brokenFile := by decide +kernel
    cases broken.symm.trans read
    exact absurd same (by decide +kernel)
  refine (loadControlTable_selects filesCsv twoVersions [] smallFileMd5 []).2 ⟨[],rfl,by decide +kernel,by decide +kernel,
    [[48]],[49],[],u,by decide +kernel,by decide +kernel,?_,other⟩
  exact ⟨smallFile,none,smallFile_read,by decide +kernel,loaded⟩

theorem smallFile_passed_over : ¬ ∀ (csv : Csv) (fs : FileSystem) packagePath hwHash selected homePath entry u,
    fs.home = some homePath → fs.status (homeTable homePath) ≠ some true → fs.status (versionTables packagePath) = some true →
    entry ∈ (fs.entries (versionTables packagePath)).1 → fs.status (versionTable entry) = some true →
    Holds csv fs hwHash (versionTable entry) u →
    ∃ v path, loadControlTable csv fs packagePath hwHash fresh selected = some (true,v,path) := by
  intro every
  obtain ⟨u,loaded⟩ := smallFile_loads fun _ => smallFileMd5
  have holds : Holds (plainCsv smallFileMd5) twoVersions smallFileMd5 (versionTable [49]) u :=
    ⟨smallFile,none,smallFile_read,rfl,loaded⟩
  have listed : (twoVersions.entries (versionTables [])).1 = [[48],[49]] := by decide +kernel
  obtain ⟨v,path,found⟩ := every (plainCsv smallFileMd5) twoVersions [] smallFileMd5 [] [] [49] u rfl (by decide +kernel)
    (by decide +kernel) (by rw [listed]; exact List.mem_cons_of_mem _ List.mem_cons_self) (by decide +kernel) holds
  have answer : (loadControlTable (plainCsv smallFileMd5) twoVersions [] smallFileMd5 fresh []).map Prod.fst = some false := by
    decide +kernel
  rw [found] at answer
  cases answer

end ControlTable
end HsrbDrivers.Servomotor
