/-! # Log records -/

namespace NextOffer.Log

inductive Level where
  | debug
  | info
  | warning
  | error
  | critical
  deriving DecidableEq, Repr

namespace Level

def all : List Level := [debug, info, warning, error, critical]

def name : Level → String
  | debug => "DEBUG"
  | info => "INFO"
  | warning => "WARNING"
  | error => "ERROR"
  | critical => "CRITICAL"

def ofName? (name : String) : Option Level := all.find? (·.name = name)

/-- The place of a level in the order of severity. -/
def rank : Level → Nat
  | debug => 10
  | info => 20
  | warning => 30
  | error => 40
  | critical => 50

end Level

structure Record where
  level : Level
  logger : String
  message : String
  deriving DecidableEq, Repr

namespace Record

def debug (logger message : String) : Record := ⟨.debug, logger, message⟩

def info (logger message : String) : Record := ⟨.info, logger, message⟩

end Record

end NextOffer.Log
