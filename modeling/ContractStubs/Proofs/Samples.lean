import ContractStubs.Pass.Generator
import ContractStubs.Program.Members

/-!
# Sample programs

What small programs are made of: interfaces with a method or two, classes that want stubs for them, and the requests of
these classes. Results about programs are applied to them, each where it is proved.
-/

namespace ContractStubs

/-! ## Types -/

/-- `(Customer? who, List<T>[])`. -/
def Binder.customersExpr : TypeExpr :=
  .tuple [(.named "Customer" [] "?", some "who"), (.named "List" [.named "T" [] ""] "[]", none)] ""

/-! ## Interfaces -/

namespace Program

/-- An interface with a name and nothing else. -/
def interfaceNamed (namespaceName? : Option String) (name : String) : Declaration :=
  ⟨0, .interfaceType, name, namespaceName?, [], [], [], [], [], [], "", none, false⟩

/-- A method without parameters that gives back a task. -/
def tasked (name : String) : MemberDeclaration := ⟨name, .method, false, [], some (.named "Task" [] ""), []⟩

/-- An interface of bases that declares a method. -/
def speaking (namespaceName? : Option String) (name method : String) (bases : List String) : Declaration :=
  { interfaceNamed namespaceName? name with
    baseTypes := bases.map fun base => .named base [] ""
    members := [tasked method] }

/-- A generic interface with one method, which gives back the type parameter. -/
def genericSource (namespaceName? : Option String) (name : String) : Declaration :=
  { interfaceNamed namespaceName? name with
    typeParameters := ["T"]
    members := [⟨"Get", .method, false, [], some (.named "T" [] ""), []⟩] }

/-- The method of the generic interface for a type. -/
def getOf (namespaceName? : Option String) (name : String) (type : TypeRef) : InterfaceMember :=
  ⟨"Get", .method, false, [], some type, [], .named namespaceName? name [type]⟩

/-- An interface for a type, as a reference. -/
def boxOf (a : TypeRef) : TypeRef := .named none "IBox" [a]

end Program

/-! ## Classes -/

namespace Config

/-- A class that wants stubs for a target. -/
def wanting (name target : String) : Declaration :=
  { Program.interfaceNamed none name with
    kind := .classType
    attributes := [⟨"AddImplementation", [.named target [] ""]⟩] }

/-- A class that wants nothing and could not be understood. -/
def misread (name : String) : Declaration :=
  { Program.interfaceNamed none name with
    kind := .classType
    baseTypes := [.named "IJob" [] ""]
    usings := ["Tools"]
    text := "class"
    malformed := true }

end Config

namespace Program

/-- A class that wants stubs for some targets. -/
def workerFor (targets : List String) : Declaration :=
  { interfaceNamed none "Worker" with
    kind := .classType
    attributes := targets.map fun target => ⟨"AddImplementation", [.named target [] ""]⟩ }

/-! ## Requests -/

/-- The request for a worker that is declared behind so many interfaces. -/
def workerAsking (id : Nat) (targets : List TypeRef) : StubRequest :=
  ⟨⟨none, [], "Worker", [], .classType, [id]⟩, targets.map .targeting⟩

/-- The requests of a program for the standard marker. -/
def standardRequests (p : Program) : List StubRequest :=
  (p.provider 3).requests (.ofName "AddImplementation") ((p.provider 3).candidates (.ofName "AddImplementation"))

/-! ## Programs -/

/-- A greeting that is also a farewell, and another interface. -/
def greetings : Program := .ofModel (.ofList [speaking none "IFarewell" "Leave" [],
  speaking none "IGreeter" "Say" ["IFarewell"], speaking none "IWaiter" "Say" [], workerFor ["IGreeter", "IWaiter"]]) []

/-- A dictionary of numbers. -/
def dictionary : TypeExpr := .named "Dictionary" [.named "string" [] "", .named "int" [] ""] ""

/-- A method that gives back a dictionary at once; a dictionary has two type arguments, so its result is not
understood. -/
def load : MemberDeclaration := ⟨"Load", .method, false, [], some dictionary, []⟩

/-- A method that gives back a dictionary later. -/
def fetch : MemberDeclaration := ⟨"Fetch", .method, false, [], some (.named "Task" [dictionary] ""), []⟩

/-- A store with these methods, and a keeper for it. -/
def storing (methods : List MemberDeclaration) : Program := .ofModel (.ofList [
  { interfaceNamed (some "Data") "IStore" with members := methods },
  { interfaceNamed (some "Data") "Keeper" with
    kind := .classType
    attributes := [⟨"AddImplementation", [.named "IStore" [] ""]⟩] }]) []

/-- The store. -/
def store : TypeRef := .named (some "Data") "IStore" []

/-- The request for the keeper. -/
def keeping : StubRequest := ⟨⟨some "Data", [], "Keeper", [], .classType, [1]⟩, [.targeting store]⟩

end Program

/-! ## Passes -/

namespace Generator

/-- Two classes, one after the other, that want stubs for an interface. -/
def twoWanting : Provider := (Program.ofModel (.ofList [Program.interfaceNamed none "IJob",
  Config.wanting "First" "IJob", Config.wanting "Second" "IJob"]) Config.standard.knownTypes).provider 2

/-- The generator of a configuration that sets nothing. -/
def standard : Generator := ⟨.standard, some (.empty Config.standard.cache.capacity none)⟩

/-- A sink that keeps a list of what it is given. -/
def listing : SinkStep (List (String × String)) := fun given name text => (.ok (), given ++ [(name, text)])

end Generator

/-- A file with some text, and a diagnostic with one, for a type. -/
def StubCache.someFile (typeName text : String) : StubFile :=
  ⟨typeName ++ ".g.cs", typeName, text, [⟨.member "Say", text, [text], some text⟩]⟩

end ContractStubs
