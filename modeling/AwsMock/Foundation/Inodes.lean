import Mathlib.Logic.Function.Basic

/-! # File names and what they stand for

A name stands for an inode, which has contents. Who has opened a file goes on with its
inode, whatever becomes of the name.
-/

namespace Foundation.Inodes

structure Volume (Name Item : Type*) where
  files : Name → Option Nat := fun _ => none
  contents : Nat → List Item := fun _ => []
  next : Nat := 0

namespace Volume

section Contents

variable {Name Item : Type*} (volume : Volume Name Item)

def IsBounded : Prop := ∀ name inode, volume.files name = some inode → inode < volume.next

def read (name : Name) : List Item := ((volume.files name).map volume.contents).getD []

def write (filler : Item) (inode position : Nat) (data : List Item) : Volume Name Item :=
  let old := volume.contents inode
  { volume with
    contents := Function.update volume.contents inode
      (old.take position ++ List.replicate (position - old.length) filler ++ data ++
        old.drop (position + data.length)) }

/-- After names have been changed, a name stands for what its origin has stood for. -/
def rename (origin : Name → Option Name) : Volume Name Item :=
  { volume with files := fun name => (origin name).bind volume.files }

variable {volume}

theorem read_of_files {name : Name} {inode : Nat} (hname : volume.files name = some inode) :
    volume.read name = volume.contents inode := by
  rw [read, hname]
  rfl

theorem contents_write_end {filler : Item} {inode position : Nat} {data : List Item}
    (hposition : position = (volume.contents inode).length) :
    (volume.write filler inode position data).contents inode = volume.contents inode ++ data := by
  subst hposition
  refine (Function.update_self _ _ _).trans ?_
  rw [List.take_length, Nat.sub_self, List.replicate_zero, List.append_nil,
    List.drop_eq_nil_of_le (Nat.le_add_right _ _), List.append_nil]

theorem contents_write_of_ne {filler : Item} {inode other : Nat} (position : Nat)
    (data : List Item) (hother : other ≠ inode) :
    (volume.write filler inode position data).contents other = volume.contents other :=
  Function.update_of_ne hother _ _

theorem files_rename_of_origin {origin : Name → Option Name} {name : Name}
    (horigin : origin name = some name) : (volume.rename origin).files name = volume.files name := by
  change (origin name).bind volume.files = volume.files name
  rw [horigin]
  rfl

theorem IsBounded.rename (hbounded : volume.IsBounded) (origin : Name → Option Name) :
    (volume.rename origin).IsBounded := by
  intro name inode hname
  change (origin name).bind volume.files = some inode at hname
  obtain ⟨source, -, hsource⟩ := Option.bind_eq_some_iff.mp hname
  exact hbounded source inode hsource

end Contents

section Names

variable {Name Item : Type*} [DecidableEq Name] (volume : Volume Name Item)

/-- Opens the file of a name for writing, which makes a new one where there is none. -/
def openFile (name : Name) (truncate : Bool) : Nat × Volume Name Item :=
  match volume.files name with
  | some inode =>
    (inode, if truncate then
      { volume with contents := Function.update volume.contents inode [] }
    else volume)
  | none =>
    (volume.next,
      { files := Function.update volume.files name (some volume.next)
        contents := Function.update volume.contents volume.next []
        next := volume.next + 1 })

def remove (name : Name) : Volume Name Item :=
  { volume with files := Function.update volume.files name none }

variable {volume}

variable (name : Name)

theorem files_openFile (truncate : Bool) :
    (volume.openFile name truncate).2.files name = some (volume.openFile name truncate).1 := by
  unfold openFile
  split
  · next inode hname =>
    dsimp only
    split <;> exact hname
  · exact Function.update_self _ _ _

theorem files_openFile_of_some {name other : Name} {inode : Nat} (truncate : Bool)
    (hother : volume.files other = some inode) :
    (volume.openFile name truncate).2.files other = some inode := by
  unfold openFile
  split
  · dsimp only
    split <;> exact hother
  · next hname =>
    have hne : other ≠ name := by
      rintro rfl
      cases hname.symm.trans hother
    exact (Function.update_of_ne hne _ _).trans hother

theorem contents_openFile_self :
    (volume.openFile name true).2.contents (volume.openFile name true).1 = [] := by
  unfold openFile
  split <;> exact Function.update_self _ _ _

theorem contents_openFile_of_ne {name : Name} {truncate : Bool} {inode : Nat}
    (hinode : inode ≠ (volume.openFile name truncate).1) :
    (volume.openFile name truncate).2.contents inode = volume.contents inode := by
  unfold openFile at hinode ⊢
  split
  · next found hname =>
    rw [hname] at hinode
    dsimp only
    split
    · exact Function.update_of_ne hinode _ _
    · rfl
  · next hname =>
    rw [hname] at hinode
    exact Function.update_of_ne hinode _ _

theorem openFile_inode (truncate : Bool) :
    volume.files name = some (volume.openFile name truncate).1 ∨
      (volume.openFile name truncate).1 = volume.next := by
  unfold openFile
  split
  · next inode hname => exact .inl hname
  · exact .inr rfl

theorem next_le_openFile (truncate : Bool) :
    volume.next ≤ (volume.openFile name truncate).2.next := by
  unfold openFile
  split
  · dsimp only
    split <;> exact Nat.le_refl _
  · exact Nat.le_succ _

theorem openFile_inode_lt (hbounded : volume.IsBounded) (name : Name) (truncate : Bool) :
    (volume.openFile name truncate).1 < (volume.openFile name truncate).2.next := by
  unfold openFile
  split
  · next inode hname =>
    dsimp only
    split <;> exact hbounded name inode hname
  · exact Nat.lt_succ_self _

theorem IsBounded.openFile (hbounded : volume.IsBounded) (name : Name) (truncate : Bool) :
    (volume.openFile name truncate).2.IsBounded := by
  intro other inode hother
  unfold Volume.openFile at hother ⊢
  split
  · next hname =>
    rw [hname] at hother
    dsimp only at hother ⊢
    split
    · next htruncate =>
      rw [if_pos htruncate] at hother
      exact hbounded other inode hother
    · next htruncate =>
      rw [if_neg htruncate] at hother
      exact hbounded other inode hother
  · next hname =>
    rw [hname] at hother
    change Function.update volume.files name (some volume.next) other = some inode at hother
    change inode < volume.next + 1
    by_cases hne : other = name
    · rw [hne, Function.update_self] at hother
      rw [← Option.some_inj.mp hother]
      exact Nat.lt_succ_self _
    · rw [Function.update_of_ne hne] at hother
      exact Nat.lt_succ_of_lt (hbounded other inode hother)

theorem files_remove_of_ne {name other : Name} (hother : other ≠ name) :
    (volume.remove name).files other = volume.files other :=
  Function.update_of_ne hother _ _

theorem IsBounded.remove (hbounded : volume.IsBounded) (name : Name) :
    (volume.remove name).IsBounded := by
  intro other inode hother
  change Function.update volume.files name none other = some inode at hother
  by_cases hne : other = name
  · rw [hne, Function.update_self] at hother
    cases hother
  · rw [Function.update_of_ne hne] at hother
    exact hbounded other inode hother

end Names

end Volume

end Foundation.Inodes
