import TernBackend.Target.Layout

/-!
# Target triples

A triple names an architecture, a vendor and an operating system, with `-` between them, and
possibly an environment. The first three select the data layout of the target; parts after the
fourth are not looked at.
-/

namespace TernBackend

structure TargetTriple where
  arch : String
  vendor : String
  os : String
  env : Option String
  deriving DecidableEq

namespace TargetTriple

/-- The triple with the given parts, none of which may be empty. -/
def ofParts : List (List Char) → Option TargetTriple
  | arch :: vendor :: os :: more =>
    if [] ∈ arch :: vendor :: os :: more.take 1 then none
    else some ⟨.ofList arch, .ofList vendor, .ofList os, more.head?.map String.ofList⟩
  | _ => none

/-- `TargetTriple::parse`. -/
def parse (text : String) : Except LayoutError TargetTriple :=
  match ofParts (text.toList.splitOn '-') with
  | some triple => .ok triple
  | none => .error ⟨text, .malformedTriple⟩

def text (t : TargetTriple) : String :=
  t.arch ++ "-" ++ t.vendor ++ "-" ++ t.os ++ (match t.env with | some env => "-" ++ env | none => "")

/-- `TargetTriple::is_wasm`: whether the architecture is one of the WebAssembly family. -/
def isWasm (t : TargetTriple) : Bool := ['w', 'a', 's', 'm'].isPrefixOf t.arch.toList

def isWindows (t : TargetTriple) : Bool := t.os == "windows"

/-- `TargetTriple::is_apple`: whether the vendor is Apple; the operating system may have any of its
names. -/
def isApple (t : TargetTriple) : Bool := t.vendor == "apple"

/-- `TargetTriple::pointer_width`: the width of a pointer, as the name of the architecture tells it. -/
def pointerWidth (t : TargetTriple) : UInt32 :=
  if ['3', '2'].isSuffixOf t.arch.toList ∨ t.arch = "i386" ∨ t.arch = "i686" then 32 else 64

/-- `TargetTriple::mangling`: the specification of how symbols are mangled. -/
def mangling (t : TargetTriple) : String :=
  if t.isApple then "m:o" else if t.isWindows ∧ t.arch = "x86_64" then "m:w" else "m:e"

/-- The layout text that `DataLayout::for_triple` reads for a target, if its architecture is known. -/
def layoutText? (t : TargetTriple) : Option String :=
  if t.arch = "x86_64" then
    some ("e-" ++ t.mangling ++
      "-p270:32:32-p271:32:32-p272:64:64-i64:64-i128:128-f80:128-n8:16:32:64-S128")
  else if (t.arch = "aarch64" ∨ t.arch = "arm64") ∧ t.isApple then
    some ("e-" ++ t.mangling ++ "-i64:64-i128:128-n32:64-S128")
  else if t.arch = "aarch64" then
    some ("e-" ++ t.mangling ++ "-i8:8:32-i16:16:32-i64:64-i128:128-n32:64-S128")
  else if t.arch = "i686" ∨ t.arch = "i386" then
    some ("e-" ++ t.mangling ++
      "-p:32:32-p270:32:32-p271:32:32-p272:64:64-i128:128-f64:32:64-f80:32-n8:16:32-S128")
  else if t.isWasm then
    let bits := toString t.pointerWidth.toNat
    some ("e-m:e-p:" ++ bits ++ ":" ++ bits ++ "-p10:8:8-p20:8:8-i64:64-n32:64-S128-ni:1:10:20")
  else none

end TargetTriple

/-- `DataLayout::for_triple`: the layout of the target that a triple names. -/
def DataLayout.ofTriple (text : String) : Except LayoutError DataLayout := do
  let triple ← TargetTriple.parse text
  match triple.layoutText? with
  | some layout => DataLayout.parse layout
  | none => throw ⟨text, .unknownArchitecture triple.arch⟩

end TernBackend
