import LaunchPlan.Options.Field

/-!
Options as a data record, read and written. An object gives fields by name and may leave any of
them out, an array gives them in order and may stop early.
-/

namespace LaunchPlan

/-- A value of a data format with objects, arrays and scalars. No option is a number, so numbers
carry nothing. -/
inductive Data where
  | null
  | flag (value : Bool)
  | number
  | text (value : String)
  | array (items : List Data)
  | object (fields : List (String × Data))
  deriving Inhabited

namespace Data

/-- What a value can be taken as: nothing but null is absent, and each kind stands for itself. -/
def reading : Data → Reading
  | .null => ⟨some true, none, none⟩
  | .flag b => ⟨some false, none, some b⟩
  | .text s => ⟨some false, some s, none⟩
  | .number | .array _ | .object _ => ⟨some false, none, none⟩

end Data

namespace Options

/-- Fields set one after another by name; a name that is no field is passed over, a field given
twice is refused. -/
def setNamed (o : Options) (seen : List Field) :
    List (String × Data) → Except OptionsFault Options
  | [] => .ok o
  | (name, value) :: rest =>
    match Field.ofName? name with
    | none => setNamed o seen rest
    | some field =>
      if field ∈ seen then .error .malformed
      else do setNamed (← o.set value.reading field) (field :: seen) rest

/-- Fields set in order, as far as there are values; a value without a field is refused. -/
def setInOrder (o : Options) : List Field → List Data → Except OptionsFault Options
  | _, [] => .ok o
  | [], _ :: _ => .error .malformed
  | field :: fields, value :: values => do
    setInOrder (← o.set value.reading field) fields values

def ofData : Data → Except OptionsFault Options
  | .object fields => default.setNamed [] fields
  | .array items => default.setInOrder Field.all items
  | _ => .error .malformed

def optionalData {α : Type} (write : α → Data) : Option α → Data
  | none => .null
  | some value => write value

/-- The value of a path; one that is no text has none. -/
def pathData (p : Path) : Option Data := p.text?.map .text

def optionalPathData : Option Path → Option Data
  | none => some .null
  | some p => pathData p

def get (o : Options) : Field → Option Data
  | .machine => some (optionalData .text o.machine.toOption)
  | .dir => pathData o.dir
  | .imageName => some (.text o.imageName)
  | .efi => some (.flag o.efi)
  | .uboot => some (.flag o.uboot)
  | .bootloader => optionalPathData o.bootloader
  | .overlay => optionalPathData o.overlay
  | .mem => some (optionalData .text o.mem)
  | .mac => some (optionalData (fun m => .text m.render) o.mac.toOption)
  | .kvm => some (optionalData .flag o.kvm.toOption)
  | .noGui => some (.flag o.noGui)
  | .gdb => some (.flag o.gdb)
  | .pcap => optionalPathData o.pcap
  | .secondaryNetwork => some (.flag o.secondaryNetwork)
  | .hostForward => some (optionalData .text o.hostForward)
  | .dryRun => some (.flag o.dryRun)

/-- The options as an object with every field. There is none if a path is no text. -/
def toData? (o : Options) : Option Data :=
  (Field.all.mapM fun f => (o.get f).map fun value => (f.name, value)).map .object

end Options

end LaunchPlan
