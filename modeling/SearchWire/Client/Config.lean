import SearchWire.Bulk.Action
import SearchWire.Client.Directory
import SearchWire.Toml.Read
import SearchWire.Toml.Text

/-!
# The configuration of a client

A configuration fills in what requests leave open. `ClientConfig.ofText?` reads
it from a settings text, where unknown keys do not matter and a known key must
have its type; `ClientConfig.text` writes it and leaves out the options that are
not set. `ClientConfig.save` and `ClientConfig.load` do so with the files of a
directory.
-/

namespace SearchWire

/-- What a client adds to requests. -/
structure ClientConfig where
  defaultIndex : Option String := none
  refresh : Option Refresh := none
  errorTrace : Bool := false
  trackTotalHits : Option Bool := none
deriving DecidableEq

namespace ClientConfig

/-- The string of an item. -/
def stringOf? : Toml.Item → Option String
  | .value (.string value) => some value
  | _ => none

/-- The truth value of an item. -/
def boolOf? : Toml.Item → Option Bool
  | .value (.bool value) => some value
  | _ => none

/-- Whether an item is an array or a table without content. -/
def isHollow : Toml.Item → Bool
  | .value (.array []) | .value (.table []) | .table _ [] => true
  | _ => false

/-- The refresh policy of a table, whose single key is its name and whose item is empty. -/
def refreshOfEntries? : Toml.Entries → Option Refresh
  | [(name, item)] => if isHollow item then Refresh.named.lookup name else none
  | _ => none

/-- The refresh policy of an item: its name, or a table that stands for it. -/
def refreshOf? : Toml.Item → Option Refresh
  | .value (.string name) => Refresh.named.lookup name
  | .value (.table entries) | .table _ entries => refreshOfEntries? entries
  | _ => none

/-- The value of an optional key: absent when the key is, refused when it has another type. -/
def optionOf? {α : Type} (entries : Toml.Entries) (key : String) (read : Toml.Item → Option α) :
    Option (Option α) :=
  match entries.lookup key with
  | none => some none
  | some item => (read item).map some

/-- The configuration of settings. -/
def ofEntries? (entries : Toml.Entries) : Option ClientConfig := do
  let defaultIndex ← optionOf? entries "default_index" stringOf?
  let refresh ← optionOf? entries "refresh" refreshOf?
  let errorTrace ← optionOf? entries "error_trace" boolOf?
  let trackTotalHits ← optionOf? entries "track_total_hits" boolOf?
  return ⟨defaultIndex, refresh, errorTrace.getD false, trackTotalHits⟩

/-- Reads a configuration. -/
def ofText? (text : String) : Option ClientConfig := do
  let entries ← Toml.read? text
  ofEntries? entries

/-- The line of an option that is set. -/
def optionLine (key : String) (value : Option (List Char)) : List Char :=
  match value with
  | some text => Toml.lineText key text
  | none => []

/-- The written form of a configuration, in characters. -/
def chars (config : ClientConfig) : List Char :=
  optionLine "default_index" (config.defaultIndex.map fun index => Toml.stringText index.toList) ++
    optionLine "refresh" (config.refresh.map fun policy => Toml.stringText policy.text.toList) ++
    Toml.lineText "error_trace" (Toml.boolText config.errorTrace) ++
    optionLine "track_total_hits" (config.trackTotalHits.map Toml.boolText)

/-- The written form of a configuration. -/
def text (config : ClientConfig) : String :=
  String.ofList config.chars

end ClientConfig

/-- Why a configuration does not load. -/
inductive ConfigFault where
  | unreadable (path : String)
  | invalid (path : String)
deriving DecidableEq

/-- The wording of a fault. -/
def ConfigFault.message : ConfigFault → String
  | .unreadable path => "failed to read client config " ++ path
  | .invalid path => "invalid client config " ++ path

namespace ClientConfig

/-- Writes a configuration to a file, below directories that are created as needed, and whether it
did. -/
def save (config : ClientConfig) (directory : Directory) (path : String) : Directory × Bool :=
  directory.save path config.text

/-- Loads a configuration from a file. -/
def load (directory : Directory) (path : String) : Except ConfigFault ClientConfig :=
  match directory.find? path with
  | some (.file text) =>
      match ofText? text with
      | some config => .ok config
      | none => .error (.invalid path)
  | some .directory | none => .error (.unreadable path)

/-- Loads a configuration, the default one when nothing stands at the path. -/
def loadOrDefault (directory : Directory) (path : String) : Except ConfigFault ClientConfig :=
  match directory.find? path with
  | none => .ok {}
  | some _ => load directory path

end ClientConfig

end SearchWire
