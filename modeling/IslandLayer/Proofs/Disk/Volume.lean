import IslandLayer.Disk.Files

set_option autoImplicit false

namespace IslandLayer

/-- Files whose state is `σ`. Reading changes nothing, and a write replaces the bytes of one file or
fails. Several paths may lead to one file, and a file that does not exist has no bytes. -/
structure Volume (σ : Type) where
  File : Type
  bytes? : σ → File → Option ByteArray
  /-- The file a path leads to, whether or not it exists. -/
  locate? : σ → String → Option File
  read : σ → String → Except DiskError ByteArray
  write : σ → String → ByteArray → Except DiskError σ
  of_read : ∀ {state : σ} {path : String} {bytes : ByteArray}, read state path = .ok bytes →
    ∃ file, locate? state path = some file ∧ bytes? state file = some bytes
  of_write : ∀ {before after : σ} {path : String} {bytes : ByteArray},
    write before path bytes = .ok after →
    ∃ file, locate? before path = some file ∧ bytes? after file = some bytes ∧
      ∀ other, other ≠ file → bytes? after other = bytes? before other

namespace Volume

section

variable {σ : Type} (volume : Volume σ)

/-- The file that the path led to holds those bytes, and no other file has changed. -/
def Replaced (before : σ) (path : String) (bytes : ByteArray) (after : σ) : Prop :=
  ∃ file, volume.locate? before path = some file ∧ volume.bytes? after file = some bytes ∧
    ∀ other, other ≠ file → volume.bytes? after other = volume.bytes? before other

/-- The volume as a disk. A write that fails leaves it as it is. -/
def disk : Disk (StateM σ) where
  read path := fun state => (volume.read state path, state)
  write path bytes := fun state =>
    match volume.write state path bytes with
    | .ok after => (.ok (), after)
    | .error e => (.error e, state)

theorem run_write (state : σ) (path : String) (bytes : ByteArray) :
    (volume.disk.write path bytes).run state =
      match volume.write state path bytes with
      | .ok after => (.ok (), after)
      | .error e => (.error e, state) := rfl

end

end Volume

namespace Files

def bytes? (files : Files) (place : Place) : Option ByteArray :=
  match files.find? place with
  | some (.file bytes) => some bytes
  | _ => none

/-- The files in memory as a volume, where a file is a place. -/
def volume : Volume Files where
  File := Place
  bytes? := bytes?
  locate? files path := (files.locate path).toOption
  read := read
  write := write
  of_read := by
    intro files path bytes given
    obtain ⟨place, leads, stored⟩ := find?_of_read given
    exact ⟨place, by rw [leads]; rfl, by rw [bytes?, stored]⟩
  of_write := by
    intro files after path bytes written
    obtain ⟨place, leads, free, rfl⟩ := eq_put_of_write written
    refine ⟨place, by rw [leads]; rfl, ?_, ?_⟩
    · simp [bytes?, find?_put files _ _ free]
    · intro other apart
      simp [bytes?, find?_put files _ _ free, apart]

theorem disk_volume : volume.disk = disk := by
  have write : volume.disk.write = disk.write := by
    funext path bytes files
    have same : volume.write files path bytes = files.write path bytes := rfl
    simp only [Volume.disk, disk, same]
    cases files.write path bytes <;> rfl
  exact congrArg (Disk.mk disk.read) write

end Files

end IslandLayer
