import LastOfC.Lib.Trace
import LastOfC.Lib.Imp
import LastOfC.Lib.Tiling
import LastOfC.Lib.KeyedList
import LastOfC.Lib.PeekQueue
import LastOfC.Lib.FifoLock
import LastOfC.Lib.Block
import LastOfC.Lib.Tickets
import LastOfC.Lib.Shuffle
import LastOfC.Lib.Solo
import LastOfC.Lib.WaitFor
import LastOfC.Lib.Line
import LastOfC.Lib.Feed
import LastOfC.Lib.Wire
import LastOfC.Lib.Libc
import LastOfC.Lib.PosFile
import LastOfC.Lib.Extents
import LastOfC.Lib.FreeMap
import LastOfC.Utils.Tipos
import LastOfC.Utils.Buffer
import LastOfC.Utils.Serializar
import LastOfC.Utils.Campos
import LastOfC.Utils.Paquete
import LastOfC.Utils.Corte
import LastOfC.Utils.Mensajes
import LastOfC.Utils.Espera
import LastOfC.Utils.Enlace
import LastOfC.Memoria.Servidor
import LastOfC.Memoria.Solapamiento
import LastOfC.Memoria.Limites
import LastOfC.Memoria.Sumas
import LastOfC.Memoria.Coalescencia
import LastOfC.Memoria.Asignacion
import LastOfC.Memoria.Respuestas
import LastOfC.Memoria.Estabilidad
import LastOfC.Memoria.Duenios
import LastOfC.Memoria.MapaContextos
import LastOfC.Memoria.Fijas
import LastOfC.Memoria.Geometria
import LastOfC.Memoria.Busqueda
import LastOfC.Memoria.DosOyentes
import LastOfC.Cpu.Mmu
import LastOfC.Cpu.Lectura
import LastOfC.Cpu.Ciclo
import LastOfC.Cpu.Instrucciones
import LastOfC.Cpu.Tablas
import LastOfC.Cpu.Respuestas
import LastOfC.Cpu.CpuMemoria
import LastOfC.Cpu.Turno
import LastOfC.Cpu.Atribucion
import LastOfC.Cpu.Guardado
import LastOfC.Cpu.Conmutacion
import LastOfC.Cpu.Pasada
import LastOfC.Cpu.Progreso
import LastOfC.Kernel.Despacho
import LastOfC.Kernel.Semaforo
import LastOfC.Kernel.Colecciones
import LastOfC.Kernel.Finalizados
import LastOfC.Kernel.Llamador
import LastOfC.Kernel.Balance
import LastOfC.Kernel.Oyente
import LastOfC.Kernel.Arranque
import LastOfC.Kernel.Pedidos
import LastOfC.Kernel.Identidad
import LastOfC.Kernel.Tids
import LastOfC.Kernel.Uniones
import LastOfC.Kernel.Marco
import LastOfC.Kernel.Turnos
import LastOfC.Kernel.Interbloqueo
import LastOfC.Kernel.Confirmados
import LastOfC.Kernel.Espera
import LastOfC.Kernel.Soltar
import LastOfC.Kernel.Propietarios
import LastOfC.Kernel.Finales
import LastOfC.Kernel.Invalidas
import LastOfC.Kernel.Cancelar
import LastOfC.Kernel.EfectosDespacho
import LastOfC.Kernel.Orden
import LastOfC.Filesystem.Disco
import LastOfC.Filesystem.Contenidos
import LastOfC.Filesystem.Bloques
import LastOfC.Filesystem.Registro
import LastOfC.Sistema.Aislamiento
import LastOfC.Sistema.FinHilo
import LastOfC.Sistema.Lectura
import LastOfC.Sistema.Accesos
import LastOfC.Sistema.Bytes
import LastOfC.Sistema.Volcado
import LastOfC.Sistema.RespuestaVolcado
import LastOfC.Sistema.Oyente
import LastOfC.Sistema.Admision
import LastOfC.Sistema.Creacion
import LastOfC.Kernel.Desbloqueo
import LastOfC.Kernel.Intercalado
import LastOfC.Sistema.Interrupcion
import LastOfC.Sistema.Conexiones
import LastOfC.Sistema.Syscalls
import LastOfC.Sistema.Programas
