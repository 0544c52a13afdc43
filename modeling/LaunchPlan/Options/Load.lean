import LaunchPlan.Error
import LaunchPlan.Host
import LaunchPlan.Options.Document

/-!
Options from a file.
-/

namespace LaunchPlan

/-- The options in the file of a path. Paths in it are read from the directory of the file. -/
def Options.load (h : Host) (path : Path) : Except ConfigFault Options :=
  match h.files.read h.cwd path with
  | .error fault => .error (.unreadableOptions path fault)
  | .ok content =>
    match Text.decode? content with
    | none => .error (.unreadableOptions path .notUtf8)
    | some text =>
      match Options.ofYaml text with
      | .error fault => .error (.malformedOptions path fault)
      | .ok o =>
        match path.parent? with
        | some base => .ok (o.rebase base)
        | none => .ok o

end LaunchPlan
