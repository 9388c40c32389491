import QOrder.Bills

/-! Printing a bill: on the thermal printer, else as a PDF. The libraries behind both may
raise at every step. -/

namespace QOrder

/-- An `Exception`: an `ImportError`, or any other, with its text. -/
inductive PyException
  | importError (text : String)
  | other (text : String)
  deriving DecidableEq, Repr

def PyException.text : PyException → String
  | .importError text => text
  | .other text => text

open EscposPrinter (PrinterCall)

/-- What the libraries do: a call of the printer may depend on the calls before it. -/
structure PrintingLibraries where
  importEscpos : Except PyException Unit
  printer : List PrinterCall → PrinterCall → Except PyException Unit
  importWeasyprint : Except PyException Unit
  mkdir : String → Except PyException Unit
  writePdf : String → String → Except PyException Unit
  /-- `repr` of a string -/
  repr : String → String

structure PrintingService where
  printerType : String := "none"
  printerIp : Option String := none
  printerPort : Int := 9100
  pdfOutputDir : String := "/tmp/qorder_bills"

namespace PrintingLibraries

variable (lib : PrintingLibraries)

/-- The calls one after the other, up to the first that raises. -/
def perform : List PrinterCall → List PrinterCall → Except PyException Unit
  | _, [] => .ok ()
  | done, call :: calls => do
    lib.printer done call
    perform (done ++ [call]) calls

def failed (error : String) : BillResult := { method := .failed, error := some error }

/-- The body of the `try` of `print_thermal`. -/
def thermalBody (service : PrintingService) (bill : BillData) : Except PyException BillResult := do
  let receipt := EscposPrinter.receipt bill
  if service.printerType = "network" then
    match service.printerIp.filter (· ≠ "") with
    | none => return failed "printer_ip is required for network printer"
    | some ip =>
      lib.perform [] (.network ip service.printerPort :: receipt)
      return { method := .thermal }
  else if service.printerType = "usb" then
    lib.perform [] (.usb 0x0416 0x5011 :: receipt)
    return { method := .thermal }
  else return failed ("Unknown printer_type: " ++ lib.repr service.printerType)

def printThermal (service : PrintingService) (bill : BillData) : Except PyException BillResult :=
  if service.printerType = "none" then .ok (failed "No thermal printer configured (printer_type='none')")
  else
    match lib.importEscpos with
    | .error (.importError _) =>
      .ok (failed "python-escpos is not installed. Install with: pip install 'qorder-api[printing]'")
    | .error e => .error e
    | .ok () =>
      match lib.thermalBody service bill with
      | .ok result => .ok result
      | .error exc => .ok (failed ("Thermal printing error: " ++ exc.text))

/-- The body of the `try` of `print_pdf`. -/
def pdfBody (outputDir : String) (bill : BillData) : Except PyException BillResult := do
  lib.mkdir outputDir
  let pdfPath := PdfPrinter.pdfPath outputDir bill
  lib.writePdf (PdfPrinter.renderHtml bill) pdfPath
  return { method := .pdf, pdfPath := some pdfPath }

def printPdf (outputDir : String) (bill : BillData) : Except PyException BillResult :=
  match lib.importWeasyprint with
  | .error (.importError _) =>
    .ok (failed "weasyprint is not installed. Install with: pip install 'qorder-api[printing]'")
  | .error e => .error e
  | .ok () =>
    match lib.pdfBody outputDir bill with
    | .ok result => .ok result
    | .error exc => .ok (failed ("PDF generation error: " ++ exc.text))

/-- `f"{error}"` -/
def errorText (error : Option String) : String := error.getD "None"

def printBill (service : PrintingService) (bill : BillData) : Except PyException BillResult := do
  let thermalResult ← lib.printThermal service bill
  if thermalResult.method = .thermal then return thermalResult
  let pdfResult ← lib.printPdf service.pdfOutputDir bill
  if pdfResult.method = .pdf then return pdfResult
  return failed ("Thermal: " ++ errorText thermalResult.error ++ "; PDF: " ++ errorText pdfResult.error)

/-- The connection that the service is configured for. -/
def connection (service : PrintingService) : Option PrinterCall :=
  if service.printerType = "network" then
    (service.printerIp.filter (· ≠ "")).map fun ip => .network ip service.printerPort
  else if service.printerType = "usb" then some (.usb 0x0416 0x5011)
  else none

/-- The thermal path goes through: the library is there, a printer is configured, and it
takes every call. -/
def ThermalCompletes (service : PrintingService) (bill : BillData) : Prop :=
  lib.importEscpos = .ok () ∧ ∃ call, connection service = some call ∧
    lib.perform [] (call :: EscposPrinter.receipt bill) = .ok ()

def PdfWritten (outputDir : String) (bill : BillData) : Prop :=
  lib.importWeasyprint = .ok () ∧ lib.mkdir outputDir = .ok () ∧
    lib.writePdf (PdfPrinter.renderHtml bill) (PdfPrinter.pdfPath outputDir bill) = .ok ()

/-- The library is imported, or it is missing. -/
def Importable (result : Except PyException Unit) : Prop := ∀ text, result ≠ .error (.other text)

variable {lib} {service : PrintingService} {bill : BillData} {outputDir : String}

theorem connection_none (h : service.printerType = "none") : connection service = none := by
  simp [connection, h]

theorem thermalBody_connected {call : PrinterCall} (h : connection service = some call) :
    lib.thermalBody service bill =
      (lib.perform [] (call :: EscposPrinter.receipt bill)).map fun _ => { method := .thermal } := by
  unfold connection at h
  unfold thermalBody
  by_cases hn : service.printerType = "network"
  · simp only [hn, if_true] at h ⊢
    cases hip : service.printerIp.filter (· ≠ "") with
    | none =>
      rw [hip] at h
      cases h
    | some ip =>
      rw [hip] at h
      obtain rfl : .network ip service.printerPort = call := Option.some.inj h
      dsimp only
      cases lib.perform [] (.network ip service.printerPort :: EscposPrinter.receipt bill) <;> rfl
  · simp only [hn, if_false] at h ⊢
    by_cases hu : service.printerType = "usb"
    · simp only [hu, if_true, Option.some.injEq] at h ⊢
      subst h
      cases lib.perform [] (.usb 0x0416 0x5011 :: EscposPrinter.receipt bill) <;> rfl
    · simp [hu] at h

variable (lib bill) in
theorem thermalBody_unconnected (h : connection service = none) :
    ∃ error, lib.thermalBody service bill = .ok (failed error) := by
  unfold connection at h
  unfold thermalBody
  by_cases hn : service.printerType = "network"
  · simp only [hn, if_true, Option.map_eq_none_iff] at h ⊢
    rw [h]
    exact ⟨_, rfl⟩
  · simp only [hn, if_false] at h ⊢
    by_cases hu : service.printerType = "usb"
    · simp [hu] at h
    · simp only [hu, if_false]
      exact ⟨_, rfl⟩

theorem printThermal_completes (h : lib.ThermalCompletes service bill) :
    lib.printThermal service bill = .ok { method := .thermal } := by
  obtain ⟨himport, call, hcall, hperform⟩ := h
  have hnone : service.printerType ≠ "none" := by
    intro hnone
    rw [connection_none hnone] at hcall
    cases hcall
  unfold printThermal
  rw [if_neg hnone, himport, thermalBody_connected hcall, hperform]
  rfl

theorem printThermal_fails (h : ¬ lib.ThermalCompletes service bill)
    (himport : service.printerType = "none" ∨ Importable lib.importEscpos) :
    ∃ error, lib.printThermal service bill = .ok (failed error) := by
  unfold printThermal
  by_cases hnone : service.printerType = "none"
  · exact ⟨_, if_pos hnone⟩
  · rw [if_neg hnone]
    cases hlib : lib.importEscpos with
    | error e =>
      cases e with
      | importError text => exact ⟨_, rfl⟩
      | other text =>
        rcases himport with himport | himport
        · exact absurd himport hnone
        · exact absurd hlib (himport text)
    | ok _ =>
      cases hcall : connection service with
      | none =>
        obtain ⟨error, herror⟩ := thermalBody_unconnected lib bill hcall
        exact ⟨error, by rw [herror]⟩
      | some call =>
        rw [thermalBody_connected hcall]
        cases hperform : lib.perform [] (call :: EscposPrinter.receipt bill) with
        | error exc => exact ⟨_, rfl⟩
        | ok _ => exact absurd ⟨hlib, call, hcall, hperform⟩ h

theorem printThermal_raises {text : String} (hnone : service.printerType ≠ "none")
    (himport : lib.importEscpos = .error (.other text)) :
    lib.printThermal service bill = .error (.other text) := by
  unfold printThermal
  rw [if_neg hnone, himport]

theorem printPdf_written (h : lib.PdfWritten outputDir bill) :
    lib.printPdf outputDir bill = .ok { method := .pdf, pdfPath := some (PdfPrinter.pdfPath outputDir bill) } := by
  obtain ⟨himport, hmkdir, hwrite⟩ := h
  have hbody : lib.pdfBody outputDir bill =
      .ok { method := .pdf, pdfPath := some (PdfPrinter.pdfPath outputDir bill) } := by
    simp only [pdfBody, hmkdir, hwrite]
    rfl
  unfold printPdf
  rw [himport, hbody]

theorem printPdf_fails (h : ¬ lib.PdfWritten outputDir bill) (himport : Importable lib.importWeasyprint) :
    ∃ error, lib.printPdf outputDir bill = .ok (failed error) := by
  unfold printPdf
  cases hlib : lib.importWeasyprint with
  | error e =>
    cases e with
    | importError text => exact ⟨_, rfl⟩
    | other text => exact absurd hlib (himport text)
  | ok _ =>
    have hbody : ∃ exc, lib.pdfBody outputDir bill = .error exc := by
      cases hmkdir : lib.mkdir outputDir with
      | error exc => exact ⟨exc, by simp only [pdfBody, hmkdir]; rfl⟩
      | ok _ =>
        cases hwrite : lib.writePdf (PdfPrinter.renderHtml bill) (PdfPrinter.pdfPath outputDir bill) with
        | error exc => exact ⟨exc, by simp only [pdfBody, hmkdir, hwrite]; rfl⟩
        | ok _ => exact absurd ⟨hlib, hmkdir, hwrite⟩ h
    obtain ⟨exc, hexc⟩ := hbody
    exact ⟨_, by rw [hexc]⟩

theorem printPdf_raises {text : String} (himport : lib.importWeasyprint = .error (.other text)) :
    lib.printPdf outputDir bill = .error (.other text) := by
  unfold printPdf
  rw [himport]

/-- What printing a bill is to return. -/
structure Prints (lib : PrintingLibraries) (service : PrintingService) (bill : BillData) (result : BillResult) :
    Prop where
  thermal : result.method = .thermal ↔ lib.ThermalCompletes service bill
  pdf : result.method = .pdf ↔ ¬ lib.ThermalCompletes service bill ∧ lib.PdfWritten service.pdfOutputDir bill
  path : result.method = .pdf → result.pdfPath = some (PdfPrinter.pdfPath service.pdfOutputDir bill)
  failed : result.method = .failed → ∃ thermalError pdfError,
    lib.printThermal service bill = .ok (failed thermalError) ∧
      lib.printPdf service.pdfOutputDir bill = .ok (failed pdfError) ∧
        result.error = some ("Thermal: " ++ thermalError ++ "; PDF: " ++ pdfError)

theorem printBill_thermal (h : lib.ThermalCompletes service bill) :
    lib.printBill service bill = .ok { method := .thermal } := by
  unfold printBill
  rw [printThermal_completes h]
  rfl

theorem printBill_of_failed {error : String} (h : lib.printThermal service bill = .ok (failed error)) :
    lib.printBill service bill = (lib.printPdf service.pdfOutputDir bill).map fun pdfResult =>
      if pdfResult.method = .pdf then pdfResult
      else failed ("Thermal: " ++ error ++ "; PDF: " ++ errorText pdfResult.error) := by
  unfold printBill
  rw [h]
  cases lib.printPdf service.pdfOutputDir bill with
  | error exc => rfl
  | ok pdfResult =>
    by_cases hpdf : pdfResult.method = .pdf
    · simp [failed, bind, Except.bind, Except.map, pure, Except.pure, hpdf]
    · simp [failed, bind, Except.bind, Except.map, pure, Except.pure, hpdf, errorText]

/-- Unless the import of a library raises what is not caught, the result is as it should be. -/
theorem printBill_prints (hescpos : service.printerType = "none" ∨ Importable lib.importEscpos)
    (hpdf : lib.ThermalCompletes service bill ∨ Importable lib.importWeasyprint) :
    ∃ result, lib.printBill service bill = .ok result ∧ lib.Prints service bill result := by
  by_cases hthermal : lib.ThermalCompletes service bill
  · exact ⟨_, printBill_thermal hthermal, by simp [hthermal], by simp [hthermal], by simp, by simp⟩
  · have himport := hpdf.resolve_left hthermal
    obtain ⟨error, herror⟩ := printThermal_fails hthermal hescpos
    by_cases hwritten : lib.PdfWritten service.pdfOutputDir bill
    · refine ⟨_, by rw [printBill_of_failed herror, printPdf_written hwritten]; rfl, ?_, ?_, ?_, ?_⟩
      · simp [hthermal]
      · simp [hthermal, hwritten]
      · simp
      · simp
    · obtain ⟨pdfError, hpdfError⟩ := printPdf_fails hwritten himport
      refine ⟨_, by rw [printBill_of_failed herror, hpdfError]; rfl, ?_, ?_, ?_, ?_⟩
      · simp [hthermal, failed]
      · simp [hwritten, failed]
      · simp [failed]
      · exact fun _ => ⟨error, pdfError, herror, hpdfError, rfl⟩

/-- A bill is printed as it should exactly if importing a library raises nothing but an
`ImportError`, where that import is reached. -/
theorem bill_printed : (∃ result, lib.printBill service bill = .ok result ∧ lib.Prints service bill result) ↔
    (service.printerType = "none" ∨ Importable lib.importEscpos) ∧
      (lib.ThermalCompletes service bill ∨ Importable lib.importWeasyprint) := by
  constructor
  · rintro ⟨result, hresult, -⟩
    have hescpos : service.printerType = "none" ∨ Importable lib.importEscpos := by
      by_contra hnot
      simp only [not_or, Importable, not_forall, not_not] at hnot
      obtain ⟨hnone, text, htext⟩ := hnot
      unfold printBill at hresult
      rw [printThermal_raises hnone htext] at hresult
      cases hresult
    refine ⟨hescpos, ?_⟩
    by_cases hthermal : lib.ThermalCompletes service bill
    · exact .inl hthermal
    · obtain ⟨error, herror⟩ := printThermal_fails hthermal hescpos
      refine .inr fun text htext => ?_
      rw [printBill_of_failed herror, printPdf_raises htext] at hresult
      cases hresult
  · rintro ⟨hescpos, hpdf⟩
    exact printBill_prints hescpos hpdf

end PrintingLibraries

/-- WeasyPrint is installed, but a library that it loads is not. -/
def withoutPango : PrintingLibraries where
  importEscpos := .error (.importError "No module named 'escpos'")
  printer _ _ := .ok ()
  importWeasyprint := .error (.other "cannot load library 'libpango-1.0-0'")
  mkdir _ := .ok ()
  writePdf _ _ := .ok ()
  repr text := "'" ++ text ++ "'"

theorem printBill_raises : ¬ ∀ (lib : PrintingLibraries) (service : PrintingService) (bill : BillData),
    ∃ result, lib.printBill service bill = .ok result ∧ lib.Prints service bill result := by
  intro hprints
  obtain ⟨result, hresult, -⟩ := hprints withoutPango {} phoBill
  have hraises : withoutPango.printBill {} phoBill = .error (.other "cannot load library 'libpango-1.0-0'") := rfl
  rw [hraises] at hresult
  cases hresult

end QOrder
