/-!
# Well-known types

The namespaces of types that no source declares: those of the framework, and those that a configuration adds.
-/

namespace ContractStubs

/-- A type that is known without a declaration. -/
structure KnownType where
  name : String
  /-- The number of its type arguments; none is any number. -/
  arity? : Option Nat
  namespaceName : String
  deriving DecidableEq, Repr, Inhabited

/-- The types of one namespace that take a given number of arguments. -/
def knownTypesIn (namespaceName : String) (arity? : Option Nat) (names : List String) : List KnownType :=
  names.map fun name => ⟨name, arity?, namespaceName⟩

/-- The types of the framework. -/
def frameworkTypes : List KnownType :=
  knownTypesIn "System.Threading.Tasks" (some 0) ["Task", "ValueTask"]
    ++ knownTypesIn "System.Threading.Tasks" (some 1) ["Task", "ValueTask"]
    ++ knownTypesIn "System.Threading" (some 0) ["CancellationToken"]
    ++ knownTypesIn "System.Collections" (some 0) ["IEnumerable"]
    ++ knownTypesIn "System.Collections.Generic" (some 1)
      ["IEnumerable", "IAsyncEnumerable", "List", "IList", "IReadOnlyList", "ICollection", "IReadOnlyCollection",
       "HashSet", "ISet", "Queue", "Stack"]
    ++ knownTypesIn "System.Collections.Generic" (some 2)
      ["Dictionary", "IDictionary", "IReadOnlyDictionary", "KeyValuePair"]
    ++ knownTypesIn "System.IO" (some 0) ["Stream"]
    ++ knownTypesIn "System" (some 0)
      ["Guid", "DateTime", "DateTimeOffset", "DateOnly", "TimeOnly", "TimeSpan", "Uri", "Exception", "IDisposable",
       "IAsyncDisposable", "String", "Object", "Boolean", "Int32", "Int64"]
    ++ knownTypesIn "System" (some 1) ["Nullable", "Memory", "ReadOnlyMemory"]
    ++ knownTypesIn "System" none ["Func", "Action"]

/-- All types that are known without a declaration, those first that win. -/
structure KnownTypes where
  types : List KnownType
  deriving DecidableEq, Repr, Inhabited

namespace KnownTypes

/-- The types of the framework and further ones, which take any number of arguments and win. -/
def withExtra (extra : List (String × String)) : KnownTypes :=
  ⟨(extra.map fun (name, namespaceName) => ⟨name, none, namespaceName⟩) ++ frameworkTypes⟩

/-- The namespace of a name with so many arguments. -/
def namespaceOf? (k : KnownTypes) (name : String) (arity : Nat) : Option String :=
  (k.types.find? fun t => t.name == name && (t.arity? == none || t.arity? == some arity)).map (·.namespaceName)

end KnownTypes

end ContractStubs
