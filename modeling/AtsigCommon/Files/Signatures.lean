import Mathlib.Data.List.Infix

/-!
# The type of an upload

`detect_file_type` looks for three signatures in the first bytes of a file, in this order, and for
one of them anywhere in the first kilobyte.

* `type_settled` — a type that is recognised in the beginning of a file, however short, is the type
  of the whole file, and `SIGNATURE_BYTES` bytes are enough to recognise it.
-/

namespace Atsig

/-- `PDF_HEADER_WINDOW` -/
def pdfHeaderWindow : ℕ := 1024

/-- `SIGNATURE_BYTES` -/
def signatureBytes : ℕ := pdfHeaderWindow

/-- `EXTENSIONS` -/
def extensions : List (String × String) :=
  [("application/pdf", ".pdf"), ("image/png", ".png"), ("image/jpeg", ".jpg")]

def jpegSignature : List UInt8 := [0xff, 0xd8, 0xff]

def pngSignature : List UInt8 := [0x89, 0x50, 0x4e, 0x47, 0x0d, 0x0a, 0x1a, 0x0a]

/-- `%PDF-` -/
def pdfSignature : List UInt8 := [0x25, 0x50, 0x44, 0x46, 0x2d]

/-- `detect_file_type` -/
def detectFileType (head : List UInt8) : Option String :=
  if jpegSignature <+: head then some "image/jpeg"
  else if pngSignature <+: head then some "image/png"
  else if pdfSignature <:+: head.take pdfHeaderWindow then some "application/pdf"
  else none

/-- A signature in front of a file is in front of what was read of it, or goes beyond it. -/
lemma signature_append {signature head more : List UInt8} (h : signature <+: head ++ more) :
    signature <+: head ∨ head <+: signature :=
  List.prefix_or_prefix_of_prefix h (List.prefix_append head more)

/-- A file with a PDF header in the window has none of the other signatures, unless what was read of
it has. -/
lemma signature_of_pdf {signature head more : List UInt8}
    (hpdf : pdfSignature <:+: head.take pdfHeaderWindow) (hinside : ¬ pdfSignature <:+: signature)
    (h : signature <+: head ++ more) : signature <+: head := by
  rcases signature_append h with hhead | hbeyond
  · exact hhead
  · have htake : head.take pdfHeaderWindow <+: signature := (List.take_prefix _ head).trans hbeyond
    exact absurd (hpdf.trans htake.isInfix) hinside

/-- More bytes do not change a type that was recognised. -/
lemma detectFileType_append {head more : List UInt8} {type : String}
    (h : detectFileType head = some type) : detectFileType (head ++ more) = some type := by
  simp only [detectFileType] at h ⊢
  split_ifs at h with hjpeg hpng hpdf
  · rw [if_pos (hjpeg.trans (List.prefix_append head more))]
    exact h
  · have hnot : ¬ jpegSignature <+: head ++ more := by
      intro hboth
      have hpng' := hpng.trans (List.prefix_append head more)
      rcases List.prefix_or_prefix_of_prefix hboth hpng' with hin | hin
      · exact absurd hin (by decide)
      · exact absurd hin (by decide)
    rw [if_neg hnot, if_pos (hpng.trans (List.prefix_append head more))]
    exact h
  · have hnotJpeg : ¬ jpegSignature <+: head ++ more :=
      fun hboth => hjpeg (signature_of_pdf hpdf (by decide) hboth)
    have hnotPng : ¬ pngSignature <+: head ++ more :=
      fun hboth => hpng (signature_of_pdf hpdf (by decide) hboth)
    have hpdf' : pdfSignature <:+: (head ++ more).take pdfHeaderWindow :=
      hpdf.trans ((List.prefix_append head more).take pdfHeaderWindow).isInfix
    rw [if_neg hnotJpeg, if_neg hnotPng, if_pos hpdf']
    exact h

/-- **The first bytes settle the type.**  What is recognised in any number of first bytes is the
type of the whole file and has an extension; from `SIGNATURE_BYTES` on, nothing else in the file
counts. -/
theorem type_settled (content : List UInt8) (n : ℕ) :
    (∀ type, detectFileType (content.take n) = some type →
        detectFileType content = some type ∧ type ∈ extensions.map Prod.fst)
      ∧ (signatureBytes ≤ n → detectFileType (content.take n) = detectFileType content) := by
  refine ⟨fun type h => ⟨?_, ?_⟩, fun hn => ?_⟩
  · rw [← List.take_append_drop n content]
    exact detectFileType_append h
  · simp only [detectFileType] at h
    split_ifs at h <;> obtain rfl := Option.some.inj h <;> decide
  · have htake : (content.take n).take pdfHeaderWindow = content.take pdfHeaderWindow := by
      rw [List.take_take, min_eq_left (show pdfHeaderWindow ≤ n from hn)]
    have hjpeg : jpegSignature.length ≤ n :=
      (show jpegSignature.length ≤ signatureBytes by decide).trans hn
    have hpng : pngSignature.length ≤ n :=
      (show pngSignature.length ≤ signatureBytes by decide).trans hn
    simp only [detectFileType, htake, List.prefix_take_iff, hjpeg, hpng, and_true]

/-- A PDF with a byte order mark and a line before its header. -/
def markedPdf : List UInt8 := [0xef, 0xbb, 0xbf, 0x0a, 0x25, 0x50, 0x44, 0x46, 0x2d, 0x31, 0x2e]

/-- Nine bytes of it are enough. -/
theorem type_settled_pdf : detectFileType markedPdf = some "application/pdf"
    ∧ "application/pdf" ∈ extensions.map Prod.fst :=
  (type_settled markedPdf 9).1 "application/pdf" (by decide)

end Atsig
