import StreamConsumer.Calendar.Timestamp
import StreamConsumer.Json.Reader
import StreamConsumer.Json.Writer
import StreamConsumer.Value.Literal

/-!
# Faults

A `Fault` is the cause for which an operation has no result. Some faults are the library's own
errors: they name the field and the value at fault (`FieldReport`) or carry what the server reported
(`ApiError`). The others come from below: a number out of the range of a duration, a value of a kind
that an operation cannot work with, a text that is no timestamp. Every fault has one wording,
`Fault.message`.
-/

namespace StreamConsumer

/-! ### Own errors -/

/-- What an error about a field says. -/
structure FieldReport where
  /-- What is wrong. -/
  description : Value
  /-- The field, null where the error is about the whole. -/
  field : Value
  /-- The value at fault. -/
  value : Value
  deriving Repr

namespace FieldReport

/-- A report about a field of a document. -/
def about (description tag : Text) (value : Value) : FieldReport :=
  ⟨.text description, .text tag, value⟩

/-- A report about a whole document. -/
def whole (description : Text) : FieldReport := ⟨.text description, .null, .null⟩

end FieldReport

/-- What a field error is about. -/
inductive ReportKind where
  /-- A field as such. -/
  | field
  /-- A document that cannot be turned into a configuration. -/
  | decode
  /-- A configuration that the wire cannot carry. -/
  | encode
  /-- A word outside the vocabulary of its policy. -/
  | policy
  deriving DecidableEq, Repr

/-- How the server classes an error. -/
inductive ApiStatus where
  /-- No code that has a class of its own. -/
  | other
  /-- 503. -/
  | serviceUnavailable
  /-- 500. -/
  | server
  /-- 404. -/
  | notFound
  /-- 400. -/
  | badRequest
  deriving DecidableEq, Repr

/-- An error that the server reported. -/
structure ApiError where
  /-- Its class. -/
  status : ApiStatus
  /-- The code it came with. -/
  code : Value
  /-- The detailed code. -/
  errCode : Value
  /-- What the server says. -/
  description : Value
  deriving Repr

/-- The classes of the library's own errors. -/
inductive ErrorClass where
  /-- Any error. -/
  | general
  /-- An error about a field. -/
  | report (kind : ReportKind)
  /-- An error that the server reported. -/
  | api (status : ApiStatus)
  deriving DecidableEq, Repr

namespace ErrorClass

/-- The name of a class. -/
def name : ErrorClass → Text
  | general => "Error"
  | report .field => "FieldError"
  | report .decode => "DecodeError"
  | report .encode => "EncodeError"
  | report .policy => "InvalidPolicyError"
  | api .other => "APIError"
  | api .serviceUnavailable => "ServiceUnavailableError"
  | api .server => "ServerError"
  | api .notFound => "NotFoundError"
  | api .badRequest => "BadRequestError"

/-- The classes. -/
def all : List ErrorClass :=
  [general, report .field, report .decode, report .encode, report .policy, api .other,
    api .serviceUnavailable, api .server, api .notFound, api .badRequest]

/-- The class with a given name. -/
def ofName? (name : Text) : Option ErrorClass := all.find? (·.name == name)

/-- The classes above a class, the nearest first. -/
def ancestors (c : ErrorClass) : List ErrorClass :=
  match c with
  | general => []
  | report .field => [general]
  | report .decode => [report .field, general]
  | report .encode => [report .field, general]
  | report .policy => [report .decode, report .field, general]
  | api .other => [general]
  | api _ => [api .other, general]

/-- The class whose constructor makes the errors of a class. -/
def maker : ErrorClass → ErrorClass
  | general => general
  | report _ => report .field
  | api _ => api .other

/-- The parameters of the constructor. -/
def parameters : ErrorClass → List Text
  | general => ["description"]
  | report _ => ["description", "field", "value"]
  | api _ => ["code", "description", "err_code"]

end ErrorClass

/-! ### All faults -/

/-- The cause for which an operation has no result. -/
inductive Fault where
  /-- An error of no special class. -/
  | general (description : Value)
  /-- An error about a field or a document. -/
  | report (kind : ReportKind) (r : FieldReport)
  /-- An error that the server reported. -/
  | api (e : ApiError)
  /-- A stream without a name. -/
  | streamRequired
  /-- A value that is no word of a vocabulary. -/
  | notMember (v : Value) (vocabulary : Vocabulary)
  /-- A text, as it is shown, that is no timestamp. -/
  | timestamp (source : Text) (e : TimestampError)
  /-- A number that is no duration. -/
  | duration (e : DurationError)
  /-- A number of seconds that is "not a number". -/
  | nanSeconds
  /-- A value of a kind that counts no seconds. -/
  | secondsKind (kind : Text)
  /-- An instant outside the years 1 to 9999. -/
  | dateRange
  /-- A value of a kind that lacks a property. -/
  | property (kind name : Text)
  /-- An attempt to set a field of a configuration. -/
  | setField (name : Text)
  /-- An attempt to remove a field of a configuration. -/
  | removeField (name : Text)
  /-- A parameter that a constructor does not have. -/
  | parameter (constructed name : Text)
  /-- A value of a kind that has no hash. -/
  | unhashable (kind : Text)
  /-- A source that is no JSON document. -/
  | read (e : ReadError)
  /-- A value that has no JSON text. -/
  | write (e : WriteError)
  deriving Repr

namespace FieldReport

/-- Where the fault lies, if a field is named. -/
def place (r : FieldReport) : Text :=
  if r.field.isNull then [] else " on '" ++ r.field.display ++ "'"

end FieldReport

namespace ApiError

/-- The name of the class of an error. -/
def className (e : ApiError) : Text := (ErrorClass.api e.status).name

/-- What is reported. -/
def message (e : ApiError) : Text :=
  "jsconsumer: " ++ e.className ++ ": code=" ++ e.code.display ++ " err_code=" ++
    e.errCode.display ++ " description='" ++ e.description.display ++ "'"

/-- The error with its parts by name. -/
def literal (e : ApiError) : Text :=
  e.className ++ "(code=" ++ e.code.literal ++ ", err_code=" ++ e.errCode.literal ++
    ", description=" ++ e.description.literal ++ ")"

/-- The class that a code stands for; codes are compared as numbers. -/
def statusOf (code : Value) : ApiStatus :=
  if code.equal (.int 503) then .serviceUnavailable
  else if code.equal (.int 500) then .server
  else if code.equal (.int 404) then .notFound
  else if code.equal (.int 400) then .badRequest
  else .other

/-- The error that a document of the server describes. -/
def ofMembers (ms : Members) : ApiError :=
  { status := statusOf (ms.get "code")
    code := ms.get "code"
    errCode := ms.get "err_code"
    description := ms.get "description" }

/-- Errors are equal if they have one class and equal parts. -/
def equal (e f : ApiError) : Bool :=
  e.status == f.status && e.code.equal f.code && e.errCode.equal f.errCode &&
    e.description.equal f.description

end ApiError

namespace Fault

/-- What is reported about an error without a wording of its own. -/
def plainMessage (className : Text) (description : Value) : Text :=
  "jsconsumer: " ++ className ++ " " ++ (if description.truthy then description.display else [])

/-- What is reported. -/
def message : Fault → Text
  | general description => plainMessage ErrorClass.general.name description
  | report .field r => plainMessage (ErrorClass.report .field).name r.description
  | report .decode r => "jsconsumer: decode error" ++ r.place ++ ": " ++ r.description.display
  | report .encode r => "jsconsumer: encode error" ++ r.place ++ ": " ++ r.description.display
  | report .policy r =>
    "jsconsumer: invalid value " ++ r.value.literal ++ " for '" ++ r.field.display ++ "'"
  | api e => e.message
  | streamRequired => "jsconsumer: stream name is required"
  | notMember v vocabulary => v.literal ++ " is not a valid " ++ vocabulary.name
  | timestamp source e => e.message source
  | duration e => e.message
  | nanSeconds => "cannot convert float NaN to integer"
  | secondsKind kind => "unsupported type for timedelta seconds component: " ++ kind
  | dateRange => "date value out of range"
  | property kind name => "'" ++ kind ++ "' object has no attribute '" ++ name ++ "'"
  | setField name => "cannot assign to field " ++ Quoted.ofText name
  | removeField name => "cannot delete field " ++ Quoted.ofText name
  | parameter constructed name =>
    constructed ++ ".__init__() got an unexpected keyword argument '" ++ name ++ "'"
  | unhashable kind => "unhashable type: '" ++ kind ++ "'"
  | read e => e.message
  | write e => e.message

/-- The class of a fault that is one of the library's own errors. -/
def ownClass? : Fault → Option ErrorClass
  | general _ => some .general
  | report kind _ => some (.report kind)
  | api e => some (.api e.status)
  | _ => none

/-- A decoding error about a field. -/
def decoding (description tag : Text) (value : Value) : Fault :=
  report .decode (.about description tag value)

/-- An encoding error about a field. -/
def encoding (description tag : Text) (value : Value) : Fault :=
  report .encode (.about description tag value)

/-! ### Making errors -/

/-- The argument of a parameter, null where it is missing. -/
def argument (arguments : List (Text × Value)) (name : Text) : Value :=
  ((arguments.find? (·.1 == name)).map Prod.snd).getD .null

/-- An error of a class from the arguments of its constructor, or what is wrong with these. -/
def make (c : ErrorClass) (arguments : List (Text × Value)) : Except Fault Fault :=
  match arguments.find? fun a => !c.parameters.contains a.1 with
  | some (name, _) => .error (parameter c.maker.name name)
  | none =>
    let get := argument arguments
    match c with
    | .general => .ok (general (get "description"))
    | .report kind => .ok (report kind ⟨get "description", get "field", get "value"⟩)
    | .api status => .ok (api ⟨status, get "code", get "err_code", get "description"⟩)

/-- Whether two errors are equal. Errors that the server reported compare by their parts; of the
others each is equal to itself alone. -/
def equal (identical : Bool) : Fault → Fault → Bool
  | api e, api f => e.equal f
  | _, _ => identical

end Fault

end StreamConsumer
