import PcapSipDump.Lib.CString

/-!
# Names of capture files

`expand_dir_template` of `pcapsipdump_lib.cpp`, up to the call of `strftime`, and the directory
that is made for a file.
-/

namespace PcapSipDump

open Lib.CString

/-- The table `asciisan`: the characters that stay, and `_` for the others. -/
def asciisan : Bytes :=
  List.replicate 32 95 ++ ascii "___#__&_()_+,-._0123456789_;_=__" ++
    ascii "@ABCDEFGHIJKLMNOPQRSTUVWXYZ[_]^__abcdefghijklmnopqrstuvwxyz\x7b_\x7d~_"

/-- The loop `for(;*s1p;s1p++)` over a copied string. -/
def sanitize (s : Bytes) : Bytes := s.map fun c => asciisan.getD (c &&& 0x7f).toNat 0

/-- The string that a `%`-code of the template stands for. -/
def templateString (caller called callid : Bytes) (c : UInt8) : Option Bytes :=
  if c = 102 then some caller
  else if c = 116 then some called
  else if c = 105 then some callid
  else none

/-- The loop of `expand_dir_template` over the rest of the template, with the room that is left
in `s1`; the room is a `size_t`. -/
def expandFrom (caller called callid : Bytes) : Bytes → UInt64 → Bytes
  | [], _ => []
  | [c], _ => [c]
  | c0 :: c1 :: rest, room =>
      match templateString caller called callid c1 with
      | some v =>
          if c0 = 37 ∧ UInt64.ofNat v.length < room then
            sanitize v ++ expandFrom caller called callid rest (room - UInt64.ofNat v.length)
          else c0 :: expandFrom caller called callid (c1 :: rest) (room - 1)
      | none => c0 :: expandFrom caller called callid (c1 :: rest) (room - 1)

/-- The string that `expand_dir_template` gives to `strftime`. -/
def expandDirTemplate (format caller called callid : Bytes) : Bytes :=
  expandFrom caller called callid format (UInt64.ofNat (format.length + 256))

/-- The default template of `main`: that of root, or that of another user with the home directory
`home`, for which there is a buffer of 512 bytes. -/
def defaultFntemplate (home : Option Bytes) : Bytes :=
  let name := ascii "/%Y%m%d/%H/%Y%m%d-%H%M%S-%f-%t-%i.pcap"
  match home with
  | none => ascii "/var/spool/pcapsipdump" ++ name
  | some home => (home ++ ascii "/.var/spool/pcapsipdump" ++ name).take 511

/-- The components of a path: what stands between its slashes. -/
def components (path : Bytes) : List Bytes := path.splitOn 47

/-- A list without the separator is in front of the first component. -/
lemma splitOn_append_of_not_mem {α : Type*} [DecidableEq α] {a : α} {x : List α} (hx : a ∉ x)
    (s : List α) : (x ++ s).splitOn a = (s.splitOn a).modifyHead (x ++ ·) := by
  induction x with
  | nil =>
    obtain ⟨name, rest, hs⟩ := List.exists_cons_of_ne_nil (List.splitOn_ne_nil a s)
    rw [List.nil_append, hs, List.modifyHead_cons, List.nil_append]
  | cons c x ih =>
    have hc : ¬(c == a) = true := by
      rw [beq_iff_eq]
      exact fun h => hx (h ▸ List.mem_cons_self)
    rw [List.cons_append, List.splitOn_cons_eq_if_modifyHead, if_neg hc,
      ih fun h => hx (List.mem_cons_of_mem c h), List.modifyHead_modifyHead]
    rfl

/-- `dirname` of a path with a slash. -/
def dirname (path : Bytes) : Bytes :=
  let dropSlashes (s : Bytes) : Bytes := s.dropWhile (· = 47)
  match dropSlashes ((dropSlashes path.reverse).dropWhile (· ≠ 47)) with
  | [] => if path.head? = some 47 then [47] else ascii "."
  | dir => dir.reverse

end PcapSipDump
