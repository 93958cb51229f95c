import CallTree.Value

/-! The operations that plain values list as their callables. None of them has a mark. -/
namespace CallTree

def wholeNumberOperations : List String :=
  ["as_integer_ratio", "bit_count", "bit_length", "conjugate", "from_bytes", "to_bytes"]

def fractionOperations : List String :=
  ["as_integer_ratio", "conjugate", "fromhex", "hex", "is_integer"]

def textOperations : List String :=
  ["capitalize", "casefold", "center", "count", "encode", "endswith", "expandtabs", "find",
   "format", "format_map", "index", "isalnum", "isalpha", "isascii", "isdecimal", "isdigit",
   "isidentifier", "islower", "isnumeric", "isprintable", "isspace", "istitle", "isupper",
   "join", "ljust", "lower", "lstrip", "maketrans", "partition", "removeprefix",
   "removesuffix", "replace", "rfind", "rindex", "rjust", "rpartition", "rsplit", "rstrip",
   "split", "splitlines", "startswith", "strip", "swapcase", "title", "translate", "upper",
   "zfill"]

def bytesOperations : List String :=
  ["capitalize", "center", "count", "decode", "endswith", "expandtabs", "find", "fromhex",
   "hex", "index", "isalnum", "isalpha", "isascii", "isdigit", "islower", "isspace", "istitle",
   "isupper", "join", "ljust", "lower", "lstrip", "maketrans", "partition", "removeprefix",
   "removesuffix", "replace", "rfind", "rindex", "rjust", "rpartition", "rsplit", "rstrip",
   "split", "splitlines", "startswith", "strip", "swapcase", "title", "translate", "upper",
   "zfill"]

def listOperations : List String :=
  ["append", "clear", "copy", "count", "extend", "index", "insert", "pop", "remove",
   "reverse", "sort"]

def tupleOperations : List String := ["count", "index"]

def setOperations : List String :=
  ["add", "clear", "copy", "difference", "difference_update", "discard", "intersection",
   "intersection_update", "isdisjoint", "issubset", "issuperset", "pop", "remove",
   "symmetric_difference", "symmetric_difference_update", "union", "update"]

def mappingOperations : List String :=
  ["clear", "copy", "fromkeys", "get", "items", "keys", "pop", "popitem", "setdefault",
   "update", "values"]

def errorOperations : List String := ["add_note", "to_dict", "with_traceback"]

def dateOperations : List String :=
  ["ctime", "fromisocalendar", "fromisoformat", "fromordinal", "fromtimestamp",
   "isocalendar", "isoformat", "isoweekday", "replace", "strftime", "timetuple", "today",
   "toordinal", "weekday"]

def clockOperations : List String :=
  ["dst", "fromisoformat", "isoformat", "replace", "strftime", "tzname", "utcoffset"]

def dateTimeOperations : List String :=
  ["astimezone", "combine", "ctime", "date", "dst", "fromisocalendar", "fromisoformat",
   "fromordinal", "fromtimestamp", "isocalendar", "isoformat", "isoweekday", "now",
   "replace", "strftime", "strptime", "time", "timestamp", "timetuple", "timetz", "today",
   "toordinal", "tzname", "utcfromtimestamp", "utcnow", "utcoffset", "utctimetuple",
   "weekday"]

def Value.operations : Value → List String
  | .null | .object _ | .function _ => []
  | .bool _ | .int _ => wholeNumberOperations
  | .float _ => fractionOperations
  | .str _ => textOperations
  | .bytes _ => bytesOperations
  | .list _ => listOperations
  | .tuple _ => tupleOperations
  | .set _ => setOperations
  | .map _ => mappingOperations
  | .error _ => errorOperations
  | .moment (.date _) => dateOperations
  | .moment (.clock _) => clockOperations
  | .moment (.dateTime ..) => dateTimeOperations

end CallTree
