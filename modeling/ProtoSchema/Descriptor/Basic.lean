/-!
# Descriptors as they are written

A descriptor file says what a `.proto` file declares, in the words of its
author: names are not resolved, numbers are not checked, and every setting
may be absent. A `Pool` is what is left after checking.
-/

namespace ProtoSchema.Descriptor

/-- A half-open or closed range of numbers, as its owner reads it. -/
structure Range where
  start : Int
  stop : Int
  deriving DecidableEq, Repr

/-- A field of a message, or an extension. -/
structure Field where
  name : Option String := none
  number : Option Int := none
  label : Option Int := none
  type : Option Int := none
  typeName : Option String := none
  extendee : Option String := none
  defaultValue : Option String := none
  oneofIndex : Option Int := none
  jsonName : Option String := none
  proto3Optional : Option Bool := none
  deriving DecidableEq, Repr

/-- A named number of an enum. -/
structure EnumValue where
  name : Option String := none
  number : Option Int := none
  deriving DecidableEq, Repr

/-- An enum; its reserved ranges include their ends. -/
structure Enum where
  name : Option String := none
  values : List EnumValue := []
  allowAlias : Option Bool := none
  reserved : List Range := []
  deriving DecidableEq, Repr

/-- A message; its ranges exclude their ends. -/
structure Message where
  name : Option String := none
  fields : List Field := []
  nested : List Message := []
  enums : List Enum := []
  extensions : List Field := []
  oneofs : List (Option String) := []
  extensionRanges : List Range := []
  reserved : List Range := []
  mapEntry : Option Bool := none
  deriving Inhabited

/-- A method of a service. -/
structure Method where
  name : Option String := none
  inputType : Option String := none
  outputType : Option String := none
  clientStreaming : Option Bool := none
  serverStreaming : Option Bool := none
  deriving DecidableEq, Repr

/-- A service. -/
structure Service where
  name : Option String := none
  methods : List Method := []
  deriving DecidableEq, Repr

/-- A file; the two index lists point into its dependencies. -/
structure File where
  name : Option String := none
  package : Option String := none
  dependencies : List String := []
  publicDependencies : List Int := []
  weakDependencies : List Int := []
  messages : List Message := []
  enums : List Enum := []
  services : List Service := []
  extensions : List Field := []
  isProto3 : Bool := false

end ProtoSchema.Descriptor
