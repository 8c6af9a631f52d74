/-
# Userland.ReadPmuCounters -- the program that reads /proc/pmu_counters

`read_pmu_counters.c` scans the text with the format strings of the module, copied by hand,
into two variables it has not initialised.  Both scans succeed on every text the module
prints, and give back the two counters (`print_scan_agree`).
-/
import Dreamscape.Pmu.Live
import Dreamscape.Userland.Libc

namespace Dreamscape.Userland

set_option autoImplicit false

open Theory Kernel Pmu

/-! ## The program -/

/-- What a program leaves behind. -/
structure Ended where
  status : Int
  stdout : List Char
  stderr : List Char

def accessFormat : List Char := "L1 data cache access: %llu\n".toList

def refillFormat : List Char := "L1 data cache refill: %llu\n".toList

/-- `main`; `file` is the text of the proc file, or the reason it does not open, and the other
arguments are what the stack holds where the two variables are. -/
def readPmuCounters (file : Except (List Char) (List Char)) (access refill : U64) : Ended :=
  match file with
  | .error reason => ⟨1, [], "Error opening /proc/pmu_counters: ".toList ++ reason ++ ['\n']⟩
  | .ok text =>
      let first := fscanf accessFormat text
      let second := fscanf refillFormat first.rest
      let access := first.assigned.headD access
      let refill := second.assigned.headD refill
      ⟨0, valueLine "L1 data cache access: ".toList access ++
        valueLine "L1 data cache refill: ".toList refill, []⟩

/-! ## Both sides agree -/

/-- A line of the module is scanned with its format, up to the next line. -/
theorem fscanf_line (label : List Char) (single : SingleSpaced label) (plain : '%' ∉ label) (v : U64)
    {rest : List Char} (starts : StartsSolid rest) :
    fscanf (label ++ "%llu\n".toList) (valueLine label v ++ rest) = ⟨[v], rest⟩ := by
  have newline : scan (directives ['\n']) ('\n' :: rest) = ⟨[], rest⟩ :=
    congrArg (Scan.mk []) starts
  have number : directives "%llu\n".toList = .llu :: directives ['\n'] := rfl
  rw [fscanf, valueLine, List.append_assoc, List.append_assoc,
    scan_label single plain _ (startsSolid_formatU64 v _), number,
    scan_number v ['\n'] (['\n'] ++ rest) rfl, List.singleton_append, newline]

theorem startsSolid_line {label : List Char} (solid : label.head?.any (fun c => !isspace c) = true)
    (v : U64) (rest : List Char) : StartsSolid (valueLine label v ++ rest) := by
  cases label with
  | nil => cases solid
  | cons c label => exact startsSolid_cons (by simpa using solid) _

/-- **Print and scan agree**: whatever `pmu_counters` holds, both scans of the text the module
prints assign their variable, and the values are its first two counters. -/
theorem print_scan_agree {n : Nat} (hw : Pmuv3) (cpu : Fin n) (m : Machine n) :
    ∃ text rest rest', m.read hw cpu = .done text m ∧
      fscanf accessFormat text = ⟨[m.pmuCounters .l1DataCacheAccess], rest⟩ ∧
      fscanf refillFormat rest = ⟨[m.pmuCounters .l1DataCacheRefill], rest'⟩ ∧
      ∀ access refill, readPmuCounters (.ok text) access refill =
        ⟨0, valueLine "L1 data cache access: ".toList (m.pmuCounters .l1DataCacheAccess) ++
          valueLine "L1 data cache refill: ".toList (m.pmuCounters .l1DataCacheRefill), []⟩ := by
  let c := m.pmuCounters
  let others : List Char :=
    valueLine "L1 instruction cache access: ".toList (c .l1InstCacheAccess) ++
      valueLine "L1 instruction cache refill: ".toList (c .l1InstCacheRefill)
  let refillLine : List Char :=
    valueLine "L1 data cache refill: ".toList (c .l1DataCacheRefill) ++ others
  have first : fscanf accessFormat (countersText c) = ⟨[c .l1DataCacheAccess], refillLine⟩ :=
    fscanf_line "L1 data cache access: ".toList (by decide) (by decide) _
      (startsSolid_line rfl _ _)
  have second : fscanf refillFormat refillLine = ⟨[c .l1DataCacheRefill], others⟩ :=
    fscanf_line "L1 data cache refill: ".toList (by decide) (by decide) _
      (startsSolid_line rfl _ _)
  refine ⟨countersText c, refillLine, others, read_exec m, first, second, ?_⟩
  intro access refill
  simp only [readPmuCounters, first, second, List.headD_cons]
  rfl

end Dreamscape.Userland
