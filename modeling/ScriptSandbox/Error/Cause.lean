import ScriptSandbox.Error.Basic
/-!
The causes of errors, each with its wording. The rest of the library names causes and leaves the
words to this module.
-/

namespace ScriptSandbox.Error

open Decimal (digitText)

/-- An ending for a count of things. -/
def plural (n : Nat) : String := if n = 1 then "" else "s"

/-! ### The general kinds -/

def nameNotFound (name : String) : Error := ofKind (.nameNotFound name)

def attributeRejected (attr : String) : Error := ofKind (.attributeRejected attr)

def typeMismatch (message : String) : Error := ofKind (.typeMismatch message)

def limitExceeded (quota : Quota) (max : Nat) : Error := ofKind (.limitExceeded quota max)

def raised (value : Value) : Error := ofKind (.raised value)

def fault (name message : String) : Error := ofKind (.fault name message)

def hostFailure (capability : String) (source : HostError) : Error :=
  ofKind (.hostFailure capability source)

def structural (message : String) : Error := ofKind (.structural message)

/-! ### Faults -/

def zeroDivision (message : String) : Error := fault "ZeroDivisionError" message

/-- A key that is absent, given by its text. -/
def keyError (keyText : String) : Error := fault "KeyError" keyText

def indexError (message : String) : Error := fault "IndexError" message

def valueError (message : String) : Error := fault "ValueError" message

def overflow (operation : String) : Error :=
  fault "OverflowError" ("integer overflow in " ++ operation)

def noAttribute (receiver : Value) (attr : String) : Error :=
  fault "AttributeError"
    ("'" ++ receiver.typeName ++ "' object has no attribute '" ++ attr ++ "'")

def comparisonTooDeep : Error :=
  fault "RuntimeError" "maximum recursion depth exceeded in comparison"

def nothingToReraise : Error := fault "RuntimeError" "No active exception to reraise"

/-! ### Types -/

def unsupportedOperands (symbol : String) (left right : Value) : Error :=
  typeMismatch ("unsupported operand type(s) for " ++ symbol ++ ": '" ++ left.typeName ++
    "' and '" ++ right.typeName ++ "'")

def badOperand (symbol : String) (operand : Value) : Error :=
  typeMismatch ("bad operand type for unary " ++ symbol ++ ": '" ++ operand.typeName ++ "'")

def notOrderable (symbol : String) (left right : Value) : Error :=
  typeMismatch ("'" ++ symbol ++ "' not supported between instances of '" ++ left.typeName ++
    "' and '" ++ right.typeName ++ "'")

def notCallable (value : Value) : Error :=
  typeMismatch ("'" ++ value.typeName ++ "' object is not callable")

def notIterable (value : Value) : Error :=
  typeMismatch ("'" ++ value.typeName ++ "' object is not iterable")

def notSearchable (container : Value) : Error :=
  typeMismatch ("argument of type '" ++ container.typeName ++ "' is not iterable")

def needsStringOperand (item : Value) : Error :=
  typeMismatch ("'in <string>' requires string as left operand, not " ++ item.typeName)

def unhashable (value : Value) : Error :=
  typeMismatch ("unhashable type: '" ++ value.typeName ++ "'")

def notSubscriptable (container : Value) : Error :=
  typeMismatch ("'" ++ container.typeName ++ "' object is not subscriptable")

def noItemAssignment (container : Value) : Error :=
  typeMismatch ("'" ++ container.typeName ++ "' object does not support item assignment")

def noSliceAssignment (container : Value) : Error :=
  typeMismatch ("'" ++ container.typeName ++ "' object does not support slice assignment")

def badIndex (container index : Value) : Error :=
  typeMismatch (container.typeName ++ " indices must be integers or slices, not " ++
    index.typeName)

def badSliceIndex : Error := typeMismatch "slice indices must be integers or None"

def notMapping (value : Value) : Error :=
  typeMismatch ("'" ++ value.typeName ++ "' object is not a mapping")

def noLength (value : Value) : Error :=
  typeMismatch ("object of type '" ++ value.typeName ++ "' has no len()")

/-! ### Slices and sequences -/

def outOfRange (what : String) : Error := indexError (what ++ " index out of range")

def zeroSliceStep : Error := valueError "slice step cannot be zero"

def sliceSizeMismatch (given expected : Nat) : Error :=
  valueError ("attempt to assign sequence of size " ++ digitText given ++
    " to extended slice of size " ++ digitText expected)

def popFromEmptyList : Error := indexError "pop from empty list"

def removeAbsent : Error := valueError "list.remove(x): x not in list"

def notInList (itemText : String) : Error := valueError (itemText ++ " is not in list")

def sortTakesNoPositionals : Error := typeMismatch "list.sort() takes no positional arguments"

def badPairLength (position length : Nat) : Error :=
  valueError ("dictionary update sequence element #" ++ digitText position ++ " has length " ++
    digitText length ++ "; 2 is required")

def emptySeparator : Error := valueError "empty separator"

def joinNeedsStrings (position : Nat) (item : Value) : Error :=
  typeMismatch ("sequence item " ++ digitText position ++ ": expected str instance, " ++
    item.typeName ++ " found")

def negativeShift : Error := valueError "negative shift count"

def domainError : Error := valueError "math domain error"

def zeroToNegativePower : Error := zeroDivision "0.0 cannot be raised to a negative power"

/-! ### Arguments of native functions -/

/-- How many arguments a function accepts, in words; `atMost` is absent when there is no bound. -/
def wrongArity (func : String) (given atLeast : Nat) (atMost : Option Nat) : Error :=
  let expected :=
    if atMost = some atLeast then
      "exactly " ++ digitText atLeast ++ " argument" ++ plural atLeast
    else
      match atMost with
      | none => "at least " ++ digitText atLeast ++ " argument" ++ plural atLeast
      | some most =>
        if given < atLeast then
          "at least " ++ digitText atLeast ++ " argument" ++ plural atLeast
        else "at most " ++ digitText most ++ " argument" ++ plural most
  typeMismatch (func ++ "() takes " ++ expected ++ " (" ++ digitText given ++ " given)")

def invalidKeyword (func name : String) : Error :=
  typeMismatch ("'" ++ name ++ "' is an invalid keyword argument for " ++ func ++ "()")

def notAnInteger (func : String) (value : Value) : Error :=
  typeMismatch (func ++ "(): '" ++ value.typeName ++
    "' object cannot be interpreted as an integer")

def notAString (func : String) (value : Value) : Error :=
  typeMismatch (func ++ "() argument must be str, not " ++ value.typeName)

def notANumber (func : String) (value : Value) : Error :=
  typeMismatch (func ++ "() argument must be a string or a number, not '" ++ value.typeName ++
    "'")

def badIntLiteral (literal : String) : Error :=
  valueError ("invalid literal for int() with base 10: " ++ literal)

def badFloatLiteral (literal : String) : Error :=
  valueError ("could not convert string to float: " ++ literal)

def nanToInteger : Error := valueError "cannot convert float NaN to integer"

def zeroRangeStep : Error := valueError "range() arg 3 must not be zero"

def badAbsOperand (value : Value) : Error :=
  typeMismatch ("bad operand type for abs(): '" ++ value.typeName ++ "'")

def emptySequence (func : String) : Error := valueError (func ++ "() arg is an empty sequence")

def cannotSumStrings : Error :=
  typeMismatch "sum() can't sum strings [use ''.join(seq) instead]"

def notRoundable (value : Value) : Error :=
  typeMismatch ("type " ++ value.typeName ++ " doesn't define __round__ method")

def badSeparator (func : String) (value : Value) : Error :=
  typeMismatch (func ++ "() separator must be None or a string, not " ++ value.typeName)

/-! ### Format specifications -/

def invalidSpec (spec : String) : Error :=
  valueError ("Invalid format specifier '" ++ spec ++ "'")

def unknownCode (code : Char) : Error :=
  valueError ("Unknown format code '" ++ String.singleton code ++ "'")

def unknownCodeFor (code : Char) (value : Value) : Error :=
  valueError ("Unknown format code '" ++ String.singleton code ++ "' for object of type '" ++
    value.typeName ++ "'")

def signOnString : Error := valueError "Sign not allowed in string format specifier"

def alternateOnString : Error :=
  valueError "Alternate form (#) not allowed in string format specifier"

def groupingOnString (separator : Char) : Error :=
  valueError ("Cannot specify '" ++ String.singleton separator ++ "' with 's'.")

def precisionOnInteger : Error :=
  valueError "Precision not allowed in integer format specifier"

def unknownConversion (conversion : Char) : Error :=
  structural ("unknown string conversion '!" ++ String.singleton conversion ++ "'")

def specNotString (value : Value) : Error :=
  typeMismatch ("format spec must be a string, not '" ++ value.typeName ++ "'")

/-! ### Calls of script functions -/

def joinNames (names : List String) : String := String.intercalate "', '" names

def tooManyPositional (func : String) (expected given : Nat) : Error :=
  typeMismatch (func ++ "() takes " ++ digitText expected ++ " positional argument" ++
    plural expected ++ " but " ++ digitText given ++ (if given = 1 then " was" else " were") ++
    " given")

def repeatedArgument (func name : String) : Error :=
  typeMismatch (func ++ "() got multiple values for argument '" ++ name ++ "'")

def unexpectedKeyword (func name : String) : Error :=
  typeMismatch (func ++ "() got an unexpected keyword argument '" ++ name ++ "'")

def positionalOnlyAsKeyword (func : String) (names : List String) : Error :=
  typeMismatch (func ++ "() got some positional-only arguments passed as keyword arguments: '" ++
    joinNames names ++ "'")

/-- Parameters of a kind that received no argument and have no default. -/
def missingArguments (func kind : String) (names : List String) : Error :=
  typeMismatch (func ++ "() missing " ++ digitText names.length ++ " required " ++ kind ++
    " argument" ++ plural names.length ++ ": '" ++ joinNames names ++ "'")

def repeatedKeyword (name : String) : Error :=
  typeMismatch ("got multiple values for keyword argument '" ++ name ++ "'")

def spreadNotMapping (value : Value) : Error :=
  typeMismatch ("argument after ** must be a mapping, not '" ++ value.typeName ++ "'")

def keywordNotString : Error := typeMismatch "keywords must be strings"

/-! ### Assignment -/

def tooFewValues (expected given : Nat) : Error :=
  valueError ("not enough values to unpack (expected " ++ digitText expected ++ ", got " ++
    digitText given ++ ")")

def tooManyValues (expected : Nat) : Error :=
  valueError ("too many values to unpack (expected " ++ digitText expected ++ ")")

def tooFewValuesForStar (expected given : Nat) : Error :=
  valueError ("not enough values to unpack (expected at least " ++ digitText expected ++
    ", got " ++ digitText given ++ ")")

def starredTarget : Error := structural "starred assignment target must be in a list or tuple"

def multipleStarredTargets : Error := structural "multiple starred expressions in assignment"

def notAssignable : Error := structural "cannot assign to expression"

def notAugmentable : Error := structural "illegal expression for augmented assignment"

/-! ### Misplaced constructs -/

def returnOutsideFunction : Error := structural "'return' outside function"

def loopControlOutsideLoop : Error := structural "loop control outside loop"

def namedHandler : Error := structural "'except ... as' is not supported"

def badHandlerType (value : Value) : Error :=
  typeMismatch ("exception handler types must be strings, not '" ++ value.typeName ++ "'")

def sliceOutsideSubscript : Error := structural "slice outside a subscript"

def misplacedStar : Error := structural "can't use starred expression here"

def noOperands : Error := structural "boolean operation without operands"

def noForClause : Error := structural "comprehension without a 'for' clause"

def misplacedStarPattern : Error := structural "star pattern outside a sequence pattern"

def multipleStarPatterns : Error := structural "multiple starred names in sequence pattern"

def repeatedCapture (name : String) : Error :=
  structural ("multiple assignments to name '" ++ name ++ "' in pattern")

end ScriptSandbox.Error
