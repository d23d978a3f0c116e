import TestIntelligence.ProductionRunner.QcCsv

/-!
# Entries of the QC mapping preview

The fields that the CSV does not show.
-/

namespace TestIntelligence.ProductionRunner

open Js

structure GeneratedTestCaseFigmaTrace where
  screenId : JsString
  nodeId : Option JsString
  nodeName : Option JsString
  nodePath : Option JsString

structure QcMappingPreviewEntry extends QcCsv.QcMappingPreviewEntry where
  sourceTraceRefs : List GeneratedTestCaseFigmaTrace
  exportable : Bool
  blockingReasons : List JsString

end TestIntelligence.ProductionRunner
