import SalesExplorer.Calendar.Instant
import SalesExplorer.Text.Quoted

/-!
# Faults

Everything that can go wrong, by its cause. `Fault.message` is the text for a log, with the kind of
the fault in front; `Fault.notice` is the text for the user, where faults of retrieval and of the
selection speak for themselves.
-/

namespace SalesExplorer

/-- Why a selection or a query is refused. -/
inductive Violation where
  | repeatedKey (key : String)
  | foreignOrder (field : String)
  | hour (item : String)
  | weekday (item : String)
  | reversedRange (start stop : Date)
  /-- A refusal by someone else, in their words. -/
  | stated (message : String)
  deriving DecidableEq

def Violation.message : Violation → String
  | repeatedKey key => "duplicate metric alias " ++ key
  | foreignOrder field => "order field " ++ field ++ " is not part of the query"
  | hour item => "hour of day must be between 0 and 23, got " ++ item.quoted
  | weekday item => "day of week must be 1 (Monday) to 7 (Sunday), got " ++ item.quoted
  | reversedRange start stop =>
    "time range ends (" ++ String.ofList stop.text ++ ") before it starts (" ++
      String.ofList start.text ++ ")"
  | stated message => message

/-- An identifier that the catalog does not offer. -/
inductive UnknownOption where
  | metric (id : String)
  | dimension (id : String)
  | stated (message : String)
  deriving DecidableEq

def UnknownOption.message : UnknownOption → String
  | metric id => "metric " ++ id
  | dimension id => "dimension " ++ id
  | stated message => message

/-- Why no settings were read. -/
inductive SettingsProblem where
  | missing
  | notUtf8
  | unparsable
  | stated (message : String)
  deriving DecidableEq

def SettingsProblem.message : SettingsProblem → String
  | missing => "failed to read config file: No such file or directory (os error 2)"
  | notUtf8 => "failed to read config file: stream did not contain valid UTF-8"
  | unparsable => "failed to parse config"
  | stated message => message

inductive Fault where
  /-- The query lacks a metric or a dimension. -/
  | notRunnable
  | validation (cause : Violation)
  | unknownOption (cause : UnknownOption)
  | retrieval (message : String)
  | settings (cause : SettingsProblem)
  | json (message : String)
  | other (message : String)
  deriving DecidableEq

namespace Fault

def message : Fault → String
  | notRunnable => "query is not runnable: select at least one metric and one dimension"
  | validation cause => "validation error: " ++ cause.message
  | unknownOption cause => "unknown option: " ++ cause.message
  | retrieval message => "retrieval error: " ++ message
  | settings cause => "config error: " ++ cause.message
  | json message => "json error: " ++ message
  | other message => message

/-- The user can mend it by another selection. -/
def isValidation : Fault → Bool
  | notRunnable | validation _ => true
  | _ => false

/-- The text for the user. -/
def notice : Fault → String
  | retrieval message => message
  | validation cause => cause.message
  | fault => fault.message

/-- The text for the user whose query was refused. -/
def rejection : Fault → String
  | notRunnable => "Por favor, selecione pelo menos uma métrica e uma dimensão."
  | fault => fault.notice

end Fault

end SalesExplorer
