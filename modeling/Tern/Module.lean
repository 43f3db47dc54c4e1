/-
Modules: the path that the name of a module stands for, and the modules that are always there.
-/
namespace Tern.Module

/-- The path of a module by the parts of its name. -/
def path (segments : List String) : String := "/".intercalate segments ++ ".tern"

/-- Functions over callables and lists, line by line. -/
def functional : List String :=
  ["// Small helpers over callables and lists.",
   "//",
   "// Functions see names through the live call stack, so nothing here",
   "// returns a function that refers to its own parameters.",
   "",
   "identity(x) = x",
   "",
   "apply(f, args...) = f(args...)",
   "",
   "times(n, f) = for i in range(n) f(i)",
   "",
   "sum(xs) = xs.fold(0, (acc, x) -> acc + x)",
   "",
   "count(xs, keep) = xs.filter(keep).size",
   "",
   "zip(xs, ys) = \x7b",
   "    pairs = []",
   "    i = 0",
   "    while i < xs.size and i < ys.size \x7b",
   "        pairs.push((xs[i], ys[i]))",
   "        i += 1",
   "    \x7d",
   "    pairs",
   "\x7d"]

/-- Assertions, line by line. -/
def assertion : List String :=
  ["// Assertions that raise InvalidOperation when they fail.",
   "",
   "assertEqual(actual, expected) = \\",
   "    assert(actual == expected, \"expected \" ~ expected ~ \" but got \" ~ actual)",
   "",
   "assertThrows(body, kind) = \x7b",
   "    raised = try \x7b body(); false \x7d catch \x7b _: kind -> true \x7d",
   "    assert(raised, \"expected \" ~ kind.name ~ \" to be raised\")",
   "\x7d"]

/-- Lines as a text, each with its end. -/
def ofLines (lines : List String) : String := String.join (lines.map (· ++ "\n"))

/-- The text of a module that is always there, by its path. -/
def bundled? (path : String) : Option String :=
  if path = "std/functional.tern" then some (ofLines functional)
  else if path = "std/assert.tern" then some (ofLines assertion)
  else none

end Tern.Module
