import Mathlib.Tactic.Common

namespace ServingPlatform

/-- The exception classes the modelled code raises or receives. -/
inductive ExceptionClass
  | valueError
  | typeError
  | keyError
  | indexError
  | runtimeError
  | overflowError
  | kvCacheCapacityError
  | kvCacheOwnershipError
  | engineCapacityError
  | cancelledError
  | generatorExit
  | memoryError
  | timeoutError
  | invalidStateTransition
  | unknownModel
  | noEligibleWorker
  | requestDeadlineExceeded
  | workerDispatchError
  | workerTransportError
  | platformAdmissionError
  | platformExecutionError
  | other (name : String) (runtimeSubclass : Bool)
  deriving DecidableEq, Repr

/-- Whether `except RuntimeError` catches the class. -/
def ExceptionClass.isRuntimeError : ExceptionClass → Bool
  | .runtimeError | .kvCacheCapacityError | .kvCacheOwnershipError | .engineCapacityError | .noEligibleWorker
  | .workerDispatchError | .workerTransportError | .platformAdmissionError | .platformExecutionError => true
  | .other _ runtimeSubclass => runtimeSubclass
  | _ => false

/-- A raised exception: its class and its text. -/
structure Raised where
  kind : ExceptionClass
  message : String
  deriving DecidableEq, Repr

def valueError (message : String) : Raised := ⟨.valueError, message⟩

def runtimeError (message : String) : Raised := ⟨.runtimeError, message⟩

def keyError (message : String) : Raised := ⟨.keyError, message⟩

def indexError (message : String) : Raised := ⟨.indexError, message⟩

def ownershipError (message : String) : Raised := ⟨.kvCacheOwnershipError, message⟩

def capacityError (message : String) : Raised := ⟨.kvCacheCapacityError, message⟩

end ServingPlatform
