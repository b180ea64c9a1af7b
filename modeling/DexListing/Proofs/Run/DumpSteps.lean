import DexListing.Run.Dump

/-!
# What lasts through a dump

A dump does three things to its state: it reports an event, it begins an input, and it writes a
block. A property that each of them keeps (`Dump.Invariant`) holds after any number of classes and
inputs, wherever the dump breaks off (`Dump.Invariant.dumpInputs`).
-/

set_option autoImplicit false

namespace DexListing.Dump

/-- The state after a block has been written for a class. -/
def afterWrite (d : Dump) (className : String) (block : Block) : Dump :=
  let written := d.router.write d.session className block
  ⟨written.router, written.session, d.console ++ written.console⟩

/-- A property of dumps that events, the beginnings of inputs and written blocks keep. -/
structure Invariant (P : Dump → Prop) : Prop where
  report : ∀ d e, P d → P (d.report e)
  beginInput : ∀ d displayName, P d →
    P { d with router := d.router.beginInput displayName }
  write : ∀ d className block, P d → P (d.afterWrite className block)

namespace Invariant

variable {P : Dump → Prop} (config : Config) (writer : Writer) {d : Dump}

/-- An invariant holds after a class. -/
theorem dumpClass (hP : Invariant P) (hd : P d) (c : ClassInfo) :
    P (dumpClass config writer d c).2 := by
  have hwritten := hP.write d c.name ⟨writer.render config.selection c, none⟩ hd
  unfold Dump.dumpClass
  split
  · dsimp only
    split
    · exact hwritten
    · split
      · exact hP.report _ _ hwritten
      · exact hwritten
  · exact hd

/-- It holds after any number of classes, by induction on them. -/
theorem dumpClasses (hP : Invariant P) (hd : P d) (classes : List ClassInfo) :
    P (dumpClasses config writer d classes).2 := by
  induction classes generalizing d with
  | nil => exact hd
  | cons c rest ih =>
    have hfirst := hP.dumpClass config writer hd c
    unfold Dump.dumpClasses
    split
    · next hclass =>
      rw [hclass] at hfirst
      exact hfirst
    · next hclass =>
      rw [hclass] at hfirst
      have hrest := ih hfirst
      split
      · next hclasses =>
        rw [hclasses] at hrest
        exact hrest
      · next hclasses =>
        rw [hclasses] at hrest
        exact hrest

/-- It holds after a container breaks off. -/
theorem giveUp (hP : Invariant P) (hd : P d) (displayName : String) (seen written : Nat)
    (f : Failure) : P (d.giveUp displayName seen written f).2 := by
  unfold Dump.giveUp
  split
  · exact hP.report _ _ hd
  · exact hd

/-- It holds after a container. -/
theorem dumpContainer (hP : Invariant P) (hd : P d) (displayName : String)
    (container : Container) : P (dumpContainer config writer d displayName container).2 := by
  unfold Dump.dumpContainer
  dsimp only
  have hopened := hP.report d (.containerOpened container.header.version
    container.header.classes.count container.header.strings.count) hd
  have hclasses := hP.dumpClasses config writer (hP.beginInput _ displayName hopened)
    container.classes.classes
  split
  · next hdumped =>
    rw [hdumped] at hclasses
    exact hclasses
  · next hdumped =>
    rw [hdumped] at hclasses
    split
    · exact hP.giveUp hclasses _ _ _ _
    · exact hclasses

/-- It holds after an input, whether or not this can be opened. -/
theorem dumpInput (hP : Invariant P) (hd : P d) (opener : Opener) (entry : InputEntry) :
    P (dumpInput config writer opener d entry).2 := by
  have hstarted := hP.report d (.inputStarted entry.displayName entry.path) hd
  unfold Dump.dumpInput
  dsimp only
  split
  · exact hP.giveUp hstarted _ _ _ _
  · split
    · exact hP.giveUp hstarted _ _ _ _
    · exact hP.dumpContainer config writer hstarted _ _

/-- What each step of a dump keeps holds after all of its inputs, or after those up to the failure
that ends it. -/
theorem dumpInputs (hP : Invariant P) (hd : P d) (opener : Opener) (entries : List InputEntry) :
    P (dumpInputs config writer opener d entries).2.2 := by
  induction entries generalizing d with
  | nil => exact hd
  | cons entry rest ih =>
    have hfirst := hP.dumpInput config writer hd opener entry
    unfold Dump.dumpInputs
    split
    · next hinput =>
      rw [hinput] at hfirst
      exact hfirst
    · next hinput =>
      rw [hinput] at hfirst
      exact ih hfirst

end Invariant

end DexListing.Dump
