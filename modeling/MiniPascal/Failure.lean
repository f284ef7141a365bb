import MiniPascal.Quad

/-! # Why an operation failed

Every cause of failure has one constructor and one message. A failure may wrap another as its
cause: a fault of the machine names the quad it happened at, and a computation that broke off in
the middle is reported under the name of the scope that caught it.
-/

namespace MiniPascal

inductive Failure where
  /-- There is no more input. -/
  | endOfInput
  /-- A writer took less than it was given and did not say why. -/
  | shortWrite
  /-- The run was called off. -/
  | cancelled
  /-- The time for the run had passed. -/
  | deadlineExceeded
  /-- A stream, a writer or the file system gave this reason. -/
  | reported (reason : Text)
  /-- A cell was accessed that does not exist or has another kind. -/
  | access (cause : AccessError)
  /-- A row was asked for that the table does not have. -/
  | noRow (index : Int) (size : Nat)
  /-- A quad's operation is none of the machine's. -/
  | badOpcode (op : Opcode)
  /-- A jump leads to no place in the program. -/
  | badJump (target : Int)
  | divisionByZero
  | notFinite
  | overflow
  | stepLimit
  /-- The compiler reported this many errors. -/
  | rejected (errors : Nat)
  /-- The quad numbered `pc` could not be executed. -/
  | fault (pc : Int) (quad : Quad) (cause : Failure)
  /-- A run was stopped without a cause. -/
  | halted
  /-- A run was stopped for a cause. -/
  | haltedBy (cause : Failure)
  /-- A computation broke off with a text. -/
  | brokeOffText (scope : Text) (value : Text)
  /-- A computation broke off with a number. -/
  | brokeOffNumber (scope : Text) (value : Int)
  /-- A computation broke off with a failure. -/
  | brokeOff (scope : Text) (cause : Failure)

/-- The beginning of the message of a computation that broke off. -/
def brokeOffIn (scope : Text) : Text := if scope = [] then "panic: " else .join [scope, ": panic: "]

namespace Failure

def message : Failure → Text
  | endOfInput => "EOF"
  | shortWrite => "short write"
  | cancelled => "context canceled"
  | deadlineExceeded => "context deadline exceeded"
  | reported reason => reason
  | access cause => cause.message
  | noRow index size =>
    if index < 0 then .join ["runtime error: index out of range [", .ofInt index, "]"]
    else .join ["runtime error: index out of range [", .ofInt index, "] with length ", .ofNat size]
  | badOpcode op => .join ["invalid opcode ", op.name]
  | badJump target => .join ["invalid jump target ", .ofInt target]
  | divisionByZero => "integer division by zero"
  | notFinite => "arithmetic result is not finite"
  | overflow => "integer overflow"
  | stepLimit => "step limit exceeded"
  | rejected errors => .join ["compilation failed with ", .ofNat errors, " error(s)"]
  | fault pc quad cause =>
    .join ["fault at quad ", .ofInt pc, " (", quad.toText, "): ", cause.message]
  | halted => "program halted"
  | haltedBy cause => .join ["program halted: ", cause.message]
  | brokeOffText scope value => .join [brokeOffIn scope, value]
  | brokeOffNumber scope value => .join [brokeOffIn scope, .ofInt value]
  | brokeOff scope cause => .join [brokeOffIn scope, cause.message]

/-- The failure that a failure wraps. -/
def cause? : Failure → Option Failure
  | fault _ _ cause | haltedBy cause | brokeOff _ cause => some cause
  | _ => none

/-- A failure, its cause, the cause of that, and so on. -/
def chain : Failure → List Failure
  | fault pc quad cause => fault pc quad cause :: cause.chain
  | haltedBy cause => haltedBy cause :: cause.chain
  | brokeOff scope cause => brokeOff scope cause :: cause.chain
  | failure => [failure]

/-- Whether a failure is, or goes back to, the end of the input. -/
def isEndOfInput (failure : Failure) : Bool :=
  failure.chain.any fun
    | endOfInput => true
    | _ => false

/-- Whether a failure is, or goes back to, one that was reported with this reason. -/
def isReported (failure : Failure) (reason : Text) : Bool :=
  failure.chain.any fun
    | reported r => r = reason
    | _ => false

def isBrokenOff : Failure → Bool
  | brokeOffText .. | brokeOffNumber .. | brokeOff .. => true
  | _ => false

end Failure

/-- How a computation that may break off in the middle came to its end. -/
inductive Attempt where
  | completed
  | failed (failure : Failure)
  | brokeOffText (value : Text)
  | brokeOffNumber (value : Int)
  | brokeOff (cause : Failure)

/-- The failure to report for an attempt made in a named scope. -/
def Attempt.failure? (scope : Text) : Attempt → Option Failure
  | completed => none
  | failed failure => some failure
  | brokeOffText value => some (.brokeOffText scope value)
  | brokeOffNumber value => some (.brokeOffNumber scope value)
  | brokeOff cause => some (.brokeOff scope cause)

end MiniPascal
