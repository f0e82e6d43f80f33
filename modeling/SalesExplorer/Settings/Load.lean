import SalesExplorer.Options.Cache
import SalesExplorer.Result.Cache
import SalesExplorer.Settings.Basic
import SalesExplorer.Toml.Reader

/-!
# Loading settings

Settings come from a TOML document. Without one being named, three places are tried in turn: the
file named by the environment, the file in the working directory, and the file of the user. The
first that can be read wins, and the defaults hold if none can.
-/

namespace SalesExplorer

namespace Settings

def ofDocument (text : String) : Except Fault Settings :=
  match (Toml.ofText? text).map (Wire.settings .document) with
  | some (.ok s) => .ok s
  | _ => .error (.settings .unparsable)

/-- The settings in a file, given by its content; none where there is no such file. -/
def ofFile (content : Option ByteArray) : Except Fault Settings :=
  match content with
  | none => .error (.settings .missing)
  | some bytes => match String.fromUTF8? bytes with
    | none => .error (.settings .notUtf8)
    | some text => ofDocument text

/-- The first settings that can be read. The environment may name a file or not, and there may be
one by that name or not. -/
def load (named : Option (Option ByteArray)) (here user : Option ByteArray) : Settings :=
  let places := named.toList ++ [here, user]
  (places.findSome? fun place => (ofFile place).toOption).getD {}

end Settings

/-! ## Caches -/

/-- An empty result cache. -/
def RetrievalSettings.cache (s : RetrievalSettings) : ResultCache :=
  { window := seconds s.windowSeconds, capacity := s.capacity }

/-- An empty option cache. -/
def OptionSettings.cache (s : OptionSettings) : OptionCache :=
  { listWindow := seconds s.listSeconds, failureWindow := seconds s.failureSeconds }

end SalesExplorer
