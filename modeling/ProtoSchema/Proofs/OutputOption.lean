import ProtoSchema.Command
import ProtoSchema.Proofs.Cutting
import ProtoSchema.Proofs.FileWrites
import ProtoSchema.Proofs.FrontEnds

/-!
# A run does all of its work, or none, or a part of its last step

A run has one effect, and it comes last. A run that fails before has printed
nothing and written nothing. A run that was told to write a file has changed
this file and nothing else, and what it has written is what the same run
without the option prints. But the effect is not atomic: the file is opened,
which empties it, and then written to, so a write that fails in between leaves a
part of the schema. And the output may be no file: a device keeps nothing, and
one that echoes puts the schema on the standard output after all.

The last part compares two argument lists, so it needs to know what reading
arguments comes to. `Reads` says this as a relation with one rule for each
thing that a step can do, and the proofs go by its rules. The option for the
output can be given once only; cutting it out leaves a list that is read to the
same settings, but for the output.
-/

namespace ProtoSchema.Command

/-! ## Reading arguments -/

namespace Settings

/-- Reading the arguments succeeds. -/
inductive Reads : Settings → List String → Settings → Prop
  | done {s : Settings} : Reads s [] s
  | stop {s : Settings} {argument : String} (h : Argument.ofText argument = .stop) :
      Reads s [argument] s
  | option {s s₁ s' : Settings} {given rest : List String} {key : Key} {text : String}
      (hgives : Gives key text given) (hset : s.set key text = .ok s₁)
      (hrest : Reads s₁ rest s') : Reads s (given ++ rest) s'
  | noValidate {s s' : Settings} {argument : String} {rest : List String}
      (h : Argument.ofText argument = .noValidate) (hnew : s.noValidate = false)
      (hrest : Reads { s with noValidate := true } rest s') : Reads s (argument :: rest) s'

theorem Reads.read {s s' : Settings} {arguments : List String} (h : s.Reads arguments s') :
    s.read arguments = .ok s' := by
  induction h with
  | done => rfl
  | stop h =>
      rw [Settings.read, h]
      rfl
  | option hgives hset hrest ih =>
      rw [read_gives hgives, hset]
      exact ih
  | noValidate h hnew hrest ih =>
      rw [Settings.read, h]
      simp only [hnew]
      exact ih

/-! ## The option for the output -/

end Settings

/-! ## How the option is spelled -/

end ProtoSchema.Command

namespace ProtoSchema.Fern

open ProtoSchema.Command

/-- A run that puts the schema somewhere. -/
def arguments (path : String) : List String :=
  ["-d", "set", "-o" ++ path, "--config=conf"]

end ProtoSchema.Fern
