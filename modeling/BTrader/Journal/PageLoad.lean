import BTrader.Journal.PageLayout

/-! Loading a page: an existing valid page is mapped as it is, a missing one is
created by a master mapping. -/
namespace BTrader
open ByteMemory Infra Procedure

namespace Infra.JournalFiles

/-- The files with one page more, as it is created. -/
def addPage (files : JournalFiles) (pageId size : Nat) : JournalFiles where
  ids := files.ids ++ [pageId]
  file := Function.update files.file pageId ⟨size, PageUnit.initial size⟩
  mappable := files.mappable

@[simp] theorem addPage_bytes_same (files : JournalFiles) :
    (files.addPage p size).bytes p = PageUnit.initial size := by
  simp [addPage, bytes]

@[simp] theorem addPage_bytes_other (files : JournalFiles) (other : q ≠ p) :
    (files.addPage p size).bytes q = files.bytes q := by
  simp [addPage, bytes, Function.update_of_ne other]

theorem stretch_self {files : JournalFiles} (size : (files.file p).size = n)
    (zero : files.bytes p (n - 1) = 0) : files.stretch p n = files := by
  have written : (files.bytes p).write ⟨n - 1, [0]⟩ = (files.file p).bytes := by
    funext x
    by_cases last : x = n - 1
    · subst last
      simpa [Memory.write, bytes] using zero.symm
    · rw [write_frame, bytes]
      rintro ⟨lower, upper⟩
      simp only [List.length_singleton] at lower upper
      omega
  have page : (⟨max (files.file p).size n, (files.bytes p).write ⟨n - 1, [0]⟩⟩ : PageFile) =
      files.file p := by
    rw [written, size, Nat.max_self, ← size]
  rw [stretch, page]
  simp only [Function.update_eq_self]

end Infra.JournalFiles

namespace PageUnit

variable {location : JLocation} {files : JournalFiles} {p : Nat} {fs : List Frame}

theorem load_existing (present : p ∈ files.ids) (mappable : files.mappable p = true)
    (size : (files.file p).size = findPageSize location)
    (stored : Stored (findPageSize location) (files.bytes p) fs)
    (inside : 24 + span fs < findPageSize location) (destId : UInt32) (isWriting isLazy : Bool) :
    load location destId p isWriting isLazy files = .ok ⟨p, findPageSize location⟩ files := by
  have bounds := findPageSize_bounds location
  have mib : mebibyte = 1048576 := rfl
  have mapped : loadMmapBuffer (getPagePath location destId p) p (findPageSize location)
      isWriting isLazy files = .ok () files := by
    have created : files.create p = files := if_pos present
    have stretched : (if master isWriting isLazy = true then files.stretch p (findPageSize location)
        else files) = files := by
      split
      · exact JournalFiles.stretch_self size (stored.clear _ (by omega))
      · rfl
    simp only [loadMmapBuffer, bind_apply, get_apply, mappable, if_true, created,
      stretched, set_apply]
  have nonempty : (files.file p).size ≠ 0 := by omega
  have valid := stored.lastFramePosition_ne_zero (by omega)
  rw [load, bind_ok mapped]
  simp [nonempty, valid, stored.header.version, stored.header.pageHeaderLength,
    stored.header.getPageSize]

theorem load_new (absent : p ∉ files.ids) (mappable : files.mappable p = true)
    (writable : master isWriting isLazy = true) (location : JLocation) (destId : UInt32) :
    load location destId p isWriting isLazy files =
      .ok ⟨p, findPageSize location⟩ (files.addPage p (findPageSize location)) := by
  have bounds := findPageSize_bounds location
  have mib : mebibyte = 1048576 := rfl
  generalize sized : findPageSize location = size at bounds ⊢
  let blank : JournalFiles :=
    { files with ids := files.ids ++ [p], file := Function.update files.file p ⟨size, 0⟩ }
  have zeros : (0 : Memory).write ⟨size - 1, [0]⟩ = 0 := by
    funext x
    by_cases touched : (⟨size - 1, [0]⟩ : Store).Touches x
    · have last : x = size - 1 := by
        have := touched.1
        have := touched.2
        simp only [List.length_singleton] at *
        omega
      subst last
      simp [Memory.write]
    · exact write_frame _ _ touched
  have mapped : loadMmapBuffer (getPagePath location destId p) p size isWriting isLazy files =
      .ok () blank := by
    have stretched : (files.create p).stretch p size = blank := by
      rw [JournalFiles.create, if_neg absent]
      simp only [JournalFiles.stretch, JournalFiles.bytes, Function.update_self,
        Function.update_idem, zeros, Nat.zero_max, blank]
    simp only [loadMmapBuffer, bind_apply, get_apply, mappable, if_true, writable,
      stretched, set_apply]
  have bytes : blank.bytes p = 0 := by simp [blank, JournalFiles.bytes]
  have unset : lastFramePosition (blank.bytes p) = 0 := by
    rw [bytes]
    exact load64_zero (fun _ _ => rfl)
  have nonempty : (blank.file p).size ≠ 0 := by
    simp only [blank, Function.update_self]
    omega
  have filled : blank.store p (initHeader size) = files.addPage p size := by
    simp [JournalFiles.store, JournalFiles.modify, bytes, JournalFiles.addPage, initial, blank]
  have header := (initial_stored size).header
  rw [load, sized, bind_ok mapped]
  simp [nonempty, unset, writable, filled, header.version, header.pageHeaderLength,
    header.getPageSize]

end PageUnit
end BTrader
