import DexListing.Proofs.Run.Console
import DexListing.Proofs.Run.Containment

/-!
# Banners

A router remembers the name of the input under way and whether its banner is written. Whatever the
order of its calls is, the banner of an input comes once, before the first block of the input, and
never without one (`Router.consoleOf_start`). The banner that is pending stands for both fields:
with it in front, the text of the calls is that of the blocks before the next input begins, followed
by the texts of the inputs after that (`Router.consoleOf_eq`).
-/

set_option autoImplicit false

namespace DexListing.Router

/-- A call of a router: an input begins, or a block is written for a class. -/
inductive Call
  | beginInput (displayName : String)
  | write (className : String) (block : Block)

/-- The text that calls one after the other put on the console. A block that ends in a failure does
not keep the router from being called again. -/
def consoleOf (r : Router) (s : Session) : List Call → String
  | [] => ""
  | .beginInput displayName :: rest => (r.beginInput displayName).consoleOf s rest
  | .write className block :: rest =>
    let written := r.write s className block
    written.console ++ written.router.consoleOf written.session rest

/-! ## The texts of inputs -/

/-- The texts of the blocks that are written before the next input begins. -/
def openingTexts : List Call → List String
  | [] => []
  | .beginInput _ :: _ => []
  | .write _ block :: rest => block.text :: openingTexts rest

/-- An input, and the texts of the blocks that are written between its beginning and that of the
next one. -/
structure Scope where
  displayName : String
  texts : List String
  deriving DecidableEq, Repr

/-- The inputs that calls begin, in order; a name that is used again begins another input. -/
def scopes : List Call → List Scope
  | [] => []
  | .beginInput displayName :: rest => ⟨displayName, openingTexts rest⟩ :: scopes rest
  | .write _ _ :: rest => scopes rest

/-- Texts one after the other under a heading; without any text there is no heading either. -/
def headed (heading : String) (texts : List String) : String :=
  if texts = [] then "" else heading ++ String.join texts

/-- The text of an input: its banner and the texts of its blocks, or nothing if it has none. -/
def Scope.text (scope : Scope) : String :=
  headed (banner scope.displayName) scope.texts

/-- Without texts there is no heading. -/
@[simp] theorem headed_nil (heading : String) : headed heading [] = "" := rfl

/-- Only the first text comes after the heading. -/
theorem headed_cons (heading text : String) (texts : List String) :
    headed heading (text :: texts) = heading ++ text ++ headed "" texts := by
  cases texts with
  | nil => simp [headed]
  | cons next rest => simp [headed, String.append_assoc]

/-- An empty heading adds nothing. -/
theorem headed_empty (texts : List String) : headed "" texts = String.join texts := by
  cases texts with
  | nil => rfl
  | cons text rest => simp [headed]

/-! ## One call -/

/-- With an input its banner becomes due. -/
theorem pendingBanner_beginInput (r : Router) (displayName : String) :
    (r.beginInput displayName).pendingBanner = banner displayName := rfl

/-- Without a directory a block is put on the console after the banner that is pending, and none is
pending then. -/
theorem write_console {r : Router} (hdir : r.directory = none) (s : Session) (className : String)
    (block : Block) :
    (r.write s className block).console = r.pendingBanner ++ block.text ∧
      (r.write s className block).router.pendingBanner = "" := by
  unfold write
  rw [hdir]
  dsimp only
  cases hname : r.displayName with
  | none => simp [toConsole, pendingBanner, hname]
  | some displayName =>
    rw [toConsole_eq hname]
    simp [pendingBanner, hname]

/-- With a directory nothing is put on the console. -/
theorem write_console_of_directory {r : Router} {D : PathName} (hdir : r.directory = some D)
    (s : Session) (className : String) (block : Block) :
    (r.write s className block).console = "" := by
  unfold write
  rw [hdir]
  dsimp only
  split
  · rfl
  · unfold toFile
    split
    · rfl
    · split
      · rfl
      · split <;> rfl

/-! ## All calls -/

/-- The text of calls, from any state on. The induction carries the banner that is pending: the
beginning of an input replaces it, and the first block takes it away. -/
theorem consoleOf_eq {r : Router} (hdir : r.directory = none) (s : Session) (calls : List Call) :
    r.consoleOf s calls =
      headed r.pendingBanner (openingTexts calls) ++
        String.join ((scopes calls).map Scope.text) := by
  induction calls generalizing r s with
  | nil => rfl
  | cons call rest ih =>
    cases call with
    | beginInput displayName =>
      have hrest := ih (r := r.beginInput displayName) hdir s
      rw [pendingBanner_beginInput] at hrest
      rw [consoleOf, hrest, openingTexts, scopes, List.map_cons, String.join_cons, Scope.text,
        headed_nil, String.empty_append]
    | write className block =>
      obtain ⟨htext, hnone⟩ := write_console hdir s className block
      have hdir' := (r.write_router s className block).1.trans hdir
      have hrest := ih hdir' (r.write s className block).session
      rw [hnone] at hrest
      rw [consoleOf, htext, hrest, openingTexts, scopes, headed_cons]
      simp only [String.append_assoc]

/-- Calls of a router with a directory put nothing on the console. -/
theorem consoleOf_of_directory {r : Router} {D : PathName} (hdir : r.directory = some D)
    (s : Session) (calls : List Call) : r.consoleOf s calls = "" := by
  induction calls generalizing r s with
  | nil => rfl
  | cons call rest ih =>
    cases call with
    | beginInput displayName => exact ih (r := r.beginInput displayName) hdir s
    | write className block =>
      have hdir' := (r.write_router s className block).1.trans hdir
      rw [consoleOf, write_console_of_directory hdir, ih hdir', String.empty_append]

/-- Banners come once for every input with a class, in any order of calls. A router without a
directory puts on the console the texts of the blocks before the first input, which have no banner,
and then for each input in order its banner and the texts of its blocks, or nothing if it has no
block; blocks that end in a failure count like the others. A router with a directory puts nothing
on the console. -/
theorem consoleOf_start (extension : String) (s : Session) (calls : List Call) :
    (start extension none).consoleOf s calls =
        String.join (openingTexts calls) ++ String.join ((scopes calls).map Scope.text) ∧
      ∀ D, (start extension (some D)).consoleOf s calls = "" := by
  refine ⟨?_, fun D => consoleOf_of_directory rfl s calls⟩
  have hpending : (start extension none).pendingBanner = "" := rfl
  rw [consoleOf_eq rfl s calls, hpending, headed_empty]

/-- An input without a class, one that begins twice, and a block that fails. -/
example :
    scopes [.write "a" ⟨"x", none⟩, .beginInput "i", .beginInput "j",
      .write "b" ⟨"y", some (.rendering "no")⟩, .write "c" ⟨"z", none⟩, .beginInput "j"] =
      [⟨"i", []⟩, ⟨"j", ["y", "z"]⟩, ⟨"j", []⟩] := by
  decide

end DexListing.Router
