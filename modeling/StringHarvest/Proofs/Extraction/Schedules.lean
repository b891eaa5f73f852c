import Mathlib
import StringHarvest.Extraction
import StringHarvest.Proofs.Results

/-!
# The order in which files are finished

The files of a group are read side by side, and the `Schedule` of an extraction is the order in
which they are finished. This file says what that order decides: nothing at all if every file can be
read (`collect_eq_ok_iff`), and otherwise which failure is reported. An extraction goes through the
groups one behind another, so the failure is always one of the first group in which a file fails;
and it can be that of any such file.

**Main theorem** (`exists_schedule_collect_eq_error_iff`): the errors that an extraction can report
are those of the files of the first group that fails.
-/

namespace StringHarvest

/-- The files from a place on are finished first, then those in front of it. -/
def Schedule.startingAt (place : Nat) : Schedule where
  finished results := results.drop place ++ results.take place
  perm results := by
    refine List.perm_append_comm.trans ?_
    rw [List.take_append_drop]

namespace Extraction

variable {fs : FileSystem} {names : List String}

/-! ### The first failure -/

section firstFailure

variable {results : List (Except ExtractionError Catalog)} {e : ExtractionError}

/-- There is no failure exactly if all results are catalogs. -/
theorem firstFailure?_eq_none_iff :
    firstFailure? results = none ↔ ∃ catalogs : List Catalog, results = catalogs.map .ok := by
  unfold firstFailure?
  rw [List.findSome?_eq_none_iff]
  constructor
  · intro h
    have hrange : results ∈ Set.range (List.map Except.ok) := by
      rw [Set.range_list_map]
      intro result hresult
      rcases result with e | catalog
      · cases h _ hresult
      · exact ⟨catalog, rfl⟩
    obtain ⟨catalogs, hcatalogs⟩ := hrange
    exact ⟨catalogs, hcatalogs.symm⟩
  · rintro ⟨catalogs, rfl⟩ result hresult
    obtain ⟨catalog, -, rfl⟩ := List.mem_map.mp hresult
    rfl

/-- The first failure is one of the results. -/
theorem error_mem_of_firstFailure? (h : firstFailure? results = some e) : .error e ∈ results := by
  unfold firstFailure? at h
  obtain ⟨result, hresult, h⟩ := List.exists_of_findSome?_eq_some h
  rcases result with e' | catalog
  · obtain rfl := Option.some.inj h
    exact hresult
  · cases h

/-- Whether there is a failure does not depend on the order. -/
theorem firstFailure?_finished_eq_none_iff (schedule : Schedule) :
    firstFailure? (schedule.finished results) = none ↔ firstFailure? results = none := by
  unfold firstFailure?
  rw [List.findSome?_eq_none_iff, List.findSome?_eq_none_iff]
  constructor
  · intro h result hresult
    exact h result ((schedule.perm results).mem_iff.mpr hresult)
  · intro h result hresult
    exact h result ((schedule.perm results).mem_iff.mp hresult)

/-- Any failure is the first one, if its file is finished first. -/
theorem exists_schedule_firstFailure? (h : .error e ∈ results) :
    ∃ schedule : Schedule, firstFailure? (schedule.finished results) = some e := by
  obtain ⟨before, after, rfl⟩ := List.append_of_mem h
  refine ⟨.startingAt before.length, ?_⟩
  unfold Schedule.startingAt
  dsimp only
  rw [List.drop_left]
  rfl

end firstFailure

/-! ### One group -/

section group

variable {group : FileGroup} {schedule : Schedule} {e : ExtractionError}

/-- A group succeeds exactly if each of its files does, with the catalogs merged in the order of the
files, in whatever order they are finished. -/
theorem ofGroup_eq_ok_iff {catalog : Catalog} :
    ofGroup fs names group schedule = .ok catalog ↔
      ∃ catalogs, group.files.mapM (ofFile fs names group.language) = .ok catalogs ∧
        catalog = catalogs.foldl Catalog.merge .empty := by
  have hkept (catalogs : List Catalog) :
      (catalogs.map (.ok : Catalog → Except ExtractionError Catalog)).filterMap (·.toOption) =
        catalogs := by
    rw [List.filterMap_map]
    exact List.filterMap_some
  simp only [mapM_eq_ok_iff]
  unfold ofGroup
  dsimp only
  constructor
  · intro h
    split at h
    · cases h
    · rename_i hnone
      rw [firstFailure?_finished_eq_none_iff, firstFailure?_eq_none_iff] at hnone
      obtain ⟨catalogs, hcatalogs⟩ := hnone
      rw [hcatalogs, hkept] at h
      exact ⟨catalogs, hcatalogs, (Except.ok.inj h).symm⟩
  · rintro ⟨catalogs, hcatalogs, rfl⟩
    have hnone := firstFailure?_eq_none_iff.mpr ⟨catalogs, hcatalogs⟩
    rw [(firstFailure?_finished_eq_none_iff schedule).mpr hnone, hcatalogs, hkept]

/-- A group that fails reports the failure of one of its files. -/
theorem ofFile_of_ofGroup (h : ofGroup fs names group schedule = .error e) :
    ∃ path ∈ group.files, ofFile fs names group.language path = .error e := by
  unfold ofGroup at h
  dsimp only at h
  split at h
  · rename_i hfailure
    obtain rfl := Except.error.inj h
    have hmem := (schedule.perm _).mem_iff.mp (error_mem_of_firstFailure? hfailure)
    exact List.mem_map.mp hmem
  · cases h

/-- Each file that fails can be the one whose failure is reported. -/
theorem exists_schedule_ofGroup {path : Path} (hpath : path ∈ group.files)
    (h : ofFile fs names group.language path = .error e) :
    ∃ schedule, ofGroup fs names group schedule = .error e := by
  obtain ⟨schedule, hschedule⟩ := exists_schedule_firstFailure? (List.mem_map.mpr ⟨path, hpath, h⟩)
  refine ⟨schedule, ?_⟩
  unfold ofGroup
  dsimp only
  rw [hschedule]

/-- Success of a group does not depend on the order in which its files are finished. -/
theorem ofGroup_eq_ok_iff_of_schedule (schedule schedule' : Schedule) {catalog : Catalog} :
    ofGroup fs names group schedule = .ok catalog ↔
      ofGroup fs names group schedule' = .ok catalog := by
  rw [ofGroup_eq_ok_iff, ofGroup_eq_ok_iff]

end group

/-! ### All groups -/

section collect

variable {process : Catalog → Catalog} {groups : List FileGroup}

/-- An extraction succeeds exactly if every group does. -/
theorem collect_eq_ok_iff {schedule : Schedule} {extracted : Extracted} :
    collect fs names process groups schedule = .ok extracted ↔
      ∃ catalogs, groups.mapM (ofGroup fs names · schedule) = .ok catalogs ∧
        extracted = {
          catalog := process (catalogs.foldl Catalog.merge .empty)
          groups := (groups.zip catalogs).map fun (group, catalog) => count group catalog } := by
  unfold collect
  rw [bind_eq_ok_iff]
  constructor
  · rintro ⟨catalogs, hcatalogs, h⟩
    exact ⟨catalogs, hcatalogs, (Except.ok.inj h).symm⟩
  · rintro ⟨catalogs, hcatalogs, rfl⟩
    exact ⟨catalogs, hcatalogs, rfl⟩

/-- **Success and its catalog do not depend on the order** in which the files are finished. -/
theorem collect_eq_ok_of_schedule {schedule : Schedule} (schedule' : Schedule)
    {extracted : Extracted} (h : collect fs names process groups schedule = .ok extracted) :
    collect fs names process groups schedule' = .ok extracted := by
  obtain ⟨catalogs, hcatalogs, rfl⟩ := collect_eq_ok_iff.mp h
  refine collect_eq_ok_iff.mpr ⟨catalogs, ?_, rfl⟩
  rw [← hcatalogs]
  refine mapM_congr fun group hgroup => ?_
  obtain ⟨catalog, hcatalog⟩ := forall_ok_of_mapM hcatalogs group hgroup
  rw [hcatalog]
  exact (ofGroup_eq_ok_iff_of_schedule schedule schedule').mp hcatalog

/-- An extraction fails exactly if a group does. -/
theorem collect_eq_error_iff {schedule : Schedule} {e : ExtractionError} :
    collect fs names process groups schedule = .error e ↔
      groups.mapM (ofGroup fs names · schedule) = .error e := by
  unfold collect
  rcases groups.mapM (ofGroup fs names · schedule) with e' | catalogs
  · exact ⟨fun h => congrArg Except.error (Except.error.inj h),
      fun h => congrArg Except.error (Except.error.inj h)⟩
  · exact ⟨nofun, nofun⟩

/-- **The failures that an extraction can report** are those of the files of the first group in
which a file fails: one of them is reported, and it can be each of them. -/
theorem exists_schedule_collect_eq_error_iff {e : ExtractionError} :
    (∃ schedule, collect fs names process groups schedule = .error e) ↔
      ∃ before group after, groups = before ++ group :: after ∧
        (∀ earlier ∈ before, ∀ path ∈ earlier.files,
          ∃ catalog, ofFile fs names earlier.language path = .ok catalog) ∧
        ∃ path ∈ group.files, ofFile fs names group.language path = .error e := by
  simp only [collect_eq_error_iff, mapM_eq_error_iff]
  constructor
  · rintro ⟨schedule, before, group, after, rfl, hbefore, hgroup⟩
    refine ⟨before, group, after, rfl, fun earlier hearlier => ?_, ofFile_of_ofGroup hgroup⟩
    obtain ⟨catalog, hcatalog⟩ := hbefore earlier hearlier
    obtain ⟨catalogs, hcatalogs, -⟩ := ofGroup_eq_ok_iff.mp hcatalog
    exact forall_ok_of_mapM hcatalogs
  · rintro ⟨before, group, after, rfl, hbefore, path, hpath, hfile⟩
    obtain ⟨schedule, hgroup⟩ := exists_schedule_ofGroup hpath hfile
    refine ⟨schedule, before, group, after, rfl, fun earlier hearlier => ?_, hgroup⟩
    rcases hresult : ofGroup fs names earlier schedule with e' | catalog
    · -- an earlier group has no file that could be to blame
      obtain ⟨other, hother, hfailed⟩ := ofFile_of_ofGroup hresult
      obtain ⟨catalog, hcatalog⟩ := hbefore earlier hearlier other hother
      rw [hcatalog] at hfailed
      cases hfailed
    · exact ⟨catalog, rfl⟩

end collect

end Extraction

end StringHarvest
